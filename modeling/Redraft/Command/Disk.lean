import Redraft.File.Expression

/-!
# Disks

What the command does on a disk, whichever disk it is: it reads whole files,
makes directories and writes files.
-/

namespace Redraft.Command

/-- The operations of a disk; each may fail with a fault. -/
structure Disk (m : Type → Type) where
  read : String → m (Except DiskFault ByteArray)
  makeDirectories : String → m (Except DiskFault Unit)
  write : String → Row → m (Except DiskFault Unit)

/-- The path of a file in a directory. -/
def joinPath (directory file : String) : String :=
  if directory.isEmpty ∨ directory.toList.getLast? = some '/' then directory ++ file else directory ++ "/" ++ file

end Redraft.Command
