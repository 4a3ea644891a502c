import Redraft.Markup.Document

/-!
# Encodings

The bytes of a document become text. A byte order mark or the first two bytes
tell sixteen-bit units from single bytes; among encodings of single bytes, the
document's declaration chooses.
-/

namespace Redraft.Markup

/-- The encodings that a document may be in. -/
inductive Encoding where
  | utf8
  | latin1
  | ascii
  | windows1252
  | utf16 (bigEndian : Bool)
deriving DecidableEq, Repr

/-- Why bytes are not the text of a document: an encoding may be unknown, or may
    take several bytes for a character in a way that is not supported. -/
inductive EncodingFault where
  | malformed
  | unknown (name : String)
  | manyBytes (name : String)
deriving DecidableEq, Repr

/-! ## Names of encodings -/

/-- A name in small letters, with one underscore for each run of other
    characters than letters, digits and points; none stands in front. -/
def encodingKeyFrom : Bool → List Char → List Char
  | _, [] => []
  | gap, c :: cs =>
    if c.isAlphanum || c = '.' then
      if gap then '_' :: c.toLower :: encodingKeyFrom false cs else c.toLower :: encodingKeyFrom false cs
    else encodingKeyFrom true cs

/-- The key under which an encoding is known. -/
def encodingKey (name : String) : String :=
  String.ofList (encodingKeyFrom false (name.toList.dropWhile fun c => !(c.isAlphanum || c = '.')))

/-- The keys of the encodings whose characters are the first code points. -/
def latin1Keys : List String := [
  "8859", "cp819", "csisolatin1", "ibm819", "iso8859", "iso8859_1", "iso_8859_1", "iso_8859_1_1987",
  "iso_ir_100", "l1", "latin", "latin1", "latin_1"]

/-- The keys of the encodings in which a single byte stands for a character of ASCII only. -/
def asciiKeys : List String := [
  "646", "ansi_x3.4_1968", "ansi_x3.4_1986", "ansi_x3_4_1968", "ascii", "cp367", "cp65001", "csascii",
  "ibm367", "iso646_us", "iso_646.irv_1991", "iso_ir_6", "u8", "us", "us_ascii", "utf", "utf8",
  "utf8_ucs2", "utf8_ucs4", "utf_8", "utf_8_sig"]

/-- The keys of Windows-1252. -/
def windows1252Keys : List String := ["1252", "cp1252", "windows_1252"]

/-- The keys of the encodings that take several bytes for some characters. -/
def manyByteKeys : List String := [
  "932", "936", "949", "950", "big5", "big5_hkscs", "big5_tw", "big5hkscs", "chinese", "cp1361",
  "cp932", "cp936", "cp949", "cp950", "csbig5", "csiso2022kr", "csiso58gb231280", "csshiftjis",
  "euc_cn", "euc_jis2004", "euc_jis_2004", "euc_jisx0213", "euc_jp", "euc_kr", "euccn",
  "eucgb2312_cn", "eucjis2004", "eucjisx0213", "eucjp", "euckr", "gb18030", "gb18030_2000", "gb2312",
  "gb2312_1980", "gb2312_80", "gbk", "hkscs", "iso2022_kr", "iso2022kr", "iso_2022_kr", "iso_ir_58",
  "jisx0213", "johab", "korean", "ks_c_5601", "ks_c_5601_1987", "ks_x_1001", "ksc5601", "ksx1001",
  "ms1361", "ms932", "ms936", "ms949", "ms950", "ms_kanji", "mskanji", "s_jis", "s_jis_2004",
  "s_jisx0213", "shift_jis", "shift_jis_2004", "shift_jisx0213", "shiftjis", "shiftjis2004",
  "shiftjisx0213", "sjis", "sjis_2004", "sjisx0213", "u16", "u32", "u7", "u_jis", "uhc", "ujis",
  "unicode_1_1_utf_7", "unicodebigunmarked", "unicodelittleunmarked", "utf16", "utf32", "utf7",
  "utf_16", "utf_16_be", "utf_16_le", "utf_16be", "utf_16le", "utf_32", "utf_32_be", "utf_32_le",
  "utf_32be", "utf_32le", "utf_7", "x_mac_japanese", "x_mac_korean", "x_mac_simp_chinese",
  "x_mac_trad_chinese"]

/-- The encoding of single bytes with a given name. UTF-8 has one spelling; its
    other names mean single bytes. -/
def Encoding.ofName (name : String) : Except EncodingFault Encoding :=
  let key := encodingKey name
  if name.map Char.toLower == "utf-8" then .ok .utf8
  else if latin1Keys.contains key then .ok .latin1
  else if asciiKeys.contains key then .ok .ascii
  else if windows1252Keys.contains key then .ok .windows1252
  else if manyByteKeys.contains key then .error (.manyBytes name)
  else .error (.unknown name)

/-- A declaration that a text in sixteen-bit units may make. -/
def isWideName (name : String) : Bool :=
  ["utf-16", "utf-16be", "utf-16le"].contains (name.map Char.toLower)

/-! ## Characters -/

/-- The code points of the bytes 128 to 159 in Windows-1252, zero where there is none. -/
def windows1252Block : List Nat := [
  0x20AC, 0, 0x201A, 0x0192, 0x201E, 0x2026, 0x2020, 0x2021, 0x02C6, 0x2030, 0x0160, 0x2039,
  0x0152, 0, 0x017D, 0, 0, 0x2018, 0x2019, 0x201C, 0x201D, 0x2022, 0x2013, 0x2014, 0x02DC,
  0x2122, 0x0161, 0x203A, 0x0153, 0, 0x017E, 0x0178]

/-- The character of a single byte, in the encodings that have one for each byte. -/
def byteChar? (e : Encoding) (b : UInt8) : Option Char :=
  let n := b.toNat
  if n < 128 then some (Char.ofNat n)
  else match e with
    | .latin1 => some (Char.ofNat n)
    | .windows1252 =>
      if n < 160 then
        let code := (windows1252Block[n - 128]?).getD 0
        if code = 0 then none else some (Char.ofNat code)
      else some (Char.ofNat n)
    | _ => none

/-- Sixteen-bit units from pairs of bytes. -/
def pairUnits (bigEndian : Bool) : List Nat → List UInt8 → Option (List Nat)
  | done, [] => some done.reverse
  | done, a :: b :: rest =>
    let unit := if bigEndian then a.toNat * 256 + b.toNat else b.toNat * 256 + a.toNat
    pairUnits bigEndian (unit :: done) rest
  | _, [_] => none

/-- Characters from sixteen-bit units; a lone surrogate is refused. -/
def unitChars : List Char → List Nat → Option (List Char)
  | done, [] => some done.reverse
  | done, [u] => if 0xD800 ≤ u ∧ u < 0xE000 then none else some (Char.ofNat u :: done).reverse
  | done, u :: v :: rest =>
    if 0xD800 ≤ u ∧ u < 0xDC00 then
      if 0xDC00 ≤ v ∧ v < 0xE000 then
        unitChars (Char.ofNat (0x10000 + (u - 0xD800) * 0x400 + (v - 0xDC00)) :: done) rest
      else none
    else if 0xDC00 ≤ u ∧ u < 0xE000 then none
    else unitChars (Char.ofNat u :: done) (v :: rest)

/-- The bytes read in a given encoding. -/
def decodeIn (e : Encoding) (bytes : ByteArray) : Option String :=
  match e with
  | .utf8 => String.fromUTF8? bytes
  | .utf16 bigEndian => do
    return String.ofList (← unitChars [] (← pairUnits bigEndian [] bytes.toList))
  | _ => (bytes.toList.mapM (byteChar? e)).map String.ofList

/-- The bytes begin with a UTF-8 byte order mark. -/
def hasMark (bytes : ByteArray) : Bool := (bytes.extract 0 3).toList == [0xEF, 0xBB, 0xBF]

/-- The order of sixteen-bit units that the first two bytes tell, if they tell one. -/
def wideOrder (bytes : ByteArray) : Option Bool :=
  let first := bytes.data[0]?.getD 1
  let second := bytes.data[1]?.getD 1
  if (first == 0xFE && second == 0xFF) || first == 0 then some true
  else if (first == 0xFF && second == 0xFE) || second == 0 then some false
  else none

/-- The characters of the bytes or of the sixteen-bit units, each on its own. -/
def plainChars (wide : Option Bool) (bytes : ByteArray) : List Char :=
  match wide with
  | some bigEndian =>
    let units := (pairUnits bigEndian [] (bytes.extract 0 (bytes.size / 2 * 2)).toList).getD []
    documentChars (String.ofList (units.map Char.ofNat))
  | none =>
    let body := if hasMark bytes then bytes.extract 3 bytes.size else bytes
    Text.unifyLineEnds (body.toList.map fun b => Char.ofNat b.toNat)

/-- The encoding that a document declares. -/
def declaredEncoding (wide : Option Bool) (bytes : ByteArray) : Option String := do
  let (header, _) ← scanHeader (plainChars wide bytes)
  header.encoding

/-- What a text in sixteen-bit units may declare: not the other order, and no
    encoding of single bytes. -/
def checkWide (bigEndian : Bool) (name : String) : Except EncodingFault Unit :=
  if isWideName name then
    if name.map Char.toLower == (if bigEndian then "utf-16le" else "utf-16be") then .error .malformed
    else .ok ()
  else do
    let _ ← Encoding.ofName name
    throw .malformed

/-- The encoding of a document, from its first bytes and from what it declares. -/
def encodingOf (bytes : ByteArray) : Except EncodingFault Encoding := do
  let wide := wideOrder bytes
  match wide, declaredEncoding wide bytes with
  | some bigEndian, none => return .utf16 bigEndian
  | some bigEndian, some name =>
    checkWide bigEndian name
    return .utf16 bigEndian
  | none, none => return .utf8
  | none, some name =>
    if isWideName name then throw .malformed
    Encoding.ofName name

/-- The text of a document's bytes. -/
def decode (bytes : ByteArray) : Except EncodingFault String := do
  let e ← encodingOf bytes
  let isSingle := e = .latin1 || e = .ascii || e = .windows1252
  let body := if isSingle && hasMark bytes then bytes.extract 3 bytes.size else bytes
  let some text := decodeIn e body | throw .malformed
  return text

/-- Reads a document from its bytes. -/
def readBytes (bytes : ByteArray) : Except EncodingFault Element := do
  match read? (← decode bytes) with
  | some root => return root
  | none => throw .malformed

/-! ## Tolerant reading -/

/-- How many bytes a character with this first byte takes. -/
def sequenceLength (b : UInt8) : Nat :=
  if b < 0x80 then 1 else if b < 0xC0 then 1 else if b < 0xE0 then 2 else if b < 0xF0 then 3 else 4

/-- Text in UTF-8 in which every byte that is out of place reads as the replacement character. -/
def decodeTolerant : Nat → List Char → List UInt8 → List Char
  | 0, done, _ => done.reverse
  | _ + 1, done, [] => done.reverse
  | fuel + 1, done, b :: rest =>
    let n := sequenceLength b
    let whole := ByteArray.mk ((b :: rest).take n).toArray
    match (String.fromUTF8? whole).map String.toList with
    | some [c] => decodeTolerant fuel (c :: done) (rest.drop (n - 1))
    | _ => decodeTolerant fuel ('\uFFFD' :: done) rest

/-- The bytes as text, whatever they hold. -/
def tolerant (bytes : ByteArray) : String :=
  String.ofList (decodeTolerant (bytes.size + 1) [] bytes.toList)

end Redraft.Markup
