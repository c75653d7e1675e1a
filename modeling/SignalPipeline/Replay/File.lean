/-!
# Files that hold snapshots

What is found under a path: nothing, one file, or a directory of files. A file that cannot be used
has a fault in place of its text.

* `FileFault.message`: why a file cannot be used, in words.
* `FilePath.join`: the path of what lies in a directory.
* `FileNode.text`: the text of a file.
* `Located`: what is found under a path.
-/

namespace SignalPipeline

/-- Why a file cannot be used. -/
inductive FileFault where
  | notFound
  /-- A file stands where a directory should. -/
  | notADirectory
  /-- A directory stands where a file should. -/
  | isADirectory
  /-- The path or one of its names has too many bytes. -/
  | nameTooLong
  /-- The path holds the character that ends texts of the operating system. -/
  | nulInName
  /-- The bytes are no text. -/
  | notText
  /-- Any other reason. -/
  | other (reason : String)
  deriving Repr, DecidableEq

/-- The reason in words. -/
def FileFault.message : FileFault → String
  | notFound => "No such file or directory (os error 2)"
  | notADirectory => "Not a directory (os error 20)"
  | isADirectory => "Is a directory (os error 21)"
  | nameTooLong => "File name too long (os error 36)"
  | nulInName => "file name contained an unexpected NUL byte"
  | notText => "stream did not contain valid UTF-8"
  | other reason => reason

/-- The path of what lies in a directory. A path that starts with a slash stands for itself. -/
def FilePath.join (directory path : String) : String :=
  if directory.isEmpty || path.startsWith "/" then path
  else if directory.endsWith "/" then directory ++ path
  else directory ++ "/" ++ path

/-- The text of a file. -/
abbrev FileText := Except FileFault String

/-- A file with its bytes, or a directory. -/
inductive FileNode where
  | file (bytes : List UInt8)
  | directory
  deriving Repr, DecidableEq

/-- The text of a file, read as UTF-8. -/
def FileNode.text : FileNode → FileText
  | directory => .error .isADirectory
  | file bytes =>
    match String.fromUTF8? (ByteArray.mk bytes.toArray) with
    | some s => .ok s
    | none => .error .notText

/-- What is found under a path. -/
inductive Located where
  | absent (fault : FileFault)
  | file (text : FileText)
  /-- The files of a directory by name, in any order. -/
  | directory (files : List (String × FileText))

end SignalPipeline
