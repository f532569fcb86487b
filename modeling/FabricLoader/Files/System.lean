/-! What programs ask of the files of a system: to open one and read it to its end, or to write one as
a whole. The system may refuse any of it, for whatever reason. -/
namespace FabricLoader

inductive IoError where
  | notFound
  | isDirectory
  | notDirectory
  | nameTooLong
  | nulInPath
  /-- Any other refusal, in the system's words. -/
  | other (text : String)
  deriving DecidableEq, Repr

def IoError.message : IoError → String
  | notFound => "No such file or directory (os error 2)"
  | isDirectory => "Is a directory (os error 21)"
  | notDirectory => "Not a directory (os error 20)"
  | nameTooLong => "File name too long (os error 36)"
  | nulInPath => "file name contained an unexpected NUL byte"
  | other text => text

/-- Files of a system. Reading leaves them as they are. -/
class FileSystem (φ : Type) where
  /-- What opening a file gives; once it is open, reading it may still fail. -/
  openFile (files : φ) (path : String) : Except IoError (Except IoError (List UInt8))
  /-- Writes a whole file. Also a write that is refused may leave something behind. -/
  writeFile (files : φ) (path : String) (content : List UInt8) : Except IoError Unit × φ

end FabricLoader
