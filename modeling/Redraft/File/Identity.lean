import Redraft.Sheet.Basic

/-!
# Identities of written items

Every item in a file has an identity that no other item has. Which text stands
for it is chosen only when the file is written.
-/

namespace Redraft

/-- The kinds of items that a sheet numbers. -/
inductive ItemKind where
  | junction
  | entry
  | line
  | note
  | label
  | symbol
deriving DecidableEq, Repr, Hashable

deriving instance Hashable for SheetPath, SymbolId

/-- What an identity belongs to. -/
inductive Identity where
  | sheet (path : SheetPath)
  | block (number : Nat)
  | item (path : SheetPath) (kind : ItemKind) (number : Nat)
  | pin (owner : SymbolId) (number : String)
deriving DecidableEq, Repr, Hashable

/-- The identities of the sheets and blocks on the way to a sheet. -/
def SheetPath.identities : SheetPath → List Identity
  | .root => [.sheet .root]
  | .block n => [.sheet .root, .block n]

end Redraft
