import RecordLog.FileSystem.Operations

/-! Changes that others make to the files while the program runs, as data. -/
namespace RecordLog.FileSystem

inductive Change
  | replaceFile (path bytes : Bytes)
  | extendFile (path bytes : Bytes)
  | unlink (path : Bytes)
  | makeDirectory (path : Bytes)
  | removeDirectory (path : Bytes)
  | rename (source target : Bytes)
  | symlink (target path : Bytes)
  | setMode (path : Bytes) (mode : Mode)
  /-- From here on permission bits count. -/
  | dropPrivilege
  deriving DecidableEq, Repr

def Change.apply : Change → FileSystem → Except IoError FileSystem
  | replaceFile path bytes, fs => fs.replaceFile path bytes
  | extendFile path bytes, fs => fs.extendFile path bytes
  | unlink path, fs => fs.unlink path
  | makeDirectory path, fs => fs.makeDirectory path
  | removeDirectory path, fs => fs.removeDirectory path
  | rename source target, fs => fs.rename source target
  | symlink target path, fs => fs.symlink target path
  | setMode path mode, fs => fs.setMode path mode
  | dropPrivilege, fs => .ok { fs with privileged := false }

end RecordLog.FileSystem
