import GameBoy.CommandLine

/-!
# Directories

Enough of a file system to call the program without one: some files in a working directory, and
above it the directories that every system has.

A path is followed name by name. An empty name and `.` stay where they are, `..` goes up and stays
at the root, and any other name leads to an entry of the directory reached so far. Names are looked
up from left to right, so the first one that leads nowhere decides what is reported, and nothing can
follow the name of a file, not even an empty name. Sizes are limited in bytes: that of a whole path
before anything is looked up, that of a name when its turn comes.
-/

namespace GameBoy

/-- What a name in a directory stands for. -/
inductive DirectoryEntry where
  /-- A file with its contents. -/
  | file (contents : Array UInt8)
  /-- A directory with its entries. -/
  | directory (entries : List (String × DirectoryEntry))

/-- The entries of a directory, by name. -/
abbrev Directory := List (String × DirectoryEntry)

namespace Directory

open CommandLine (FileError)

/-- The size of the longest name. -/
def maxNameSize : Nat := 255

/-- The size of the longest path. -/
def maxPathSize : Nat := 4095

/-- Whether a part of a path stays in the directory reached so far. -/
def stays (part : String) : Bool := part = "" || part = "."

/-- What reading the file at the end of a path gives. The path is followed from the directory `here`;
`above` are the directories that contain it, the innermost one first. -/
def follow (here : Directory) (above : List Directory) :
    List String → Except FileError (Array UInt8)
  | [] => .error .isDirectory
  | part :: rest =>
    if stays part then follow here above rest
    else if part = ".." then
      match above with
      | [] => follow here [] rest
      | parent :: above => follow parent above rest
    else if maxNameSize < part.utf8ByteSize then .error .nameTooLong
    else
      match here.lookup part with
      | none => .error .notFound
      | some (.directory entries) => follow entries (here :: above) rest
      | some (.file contents) => if rest = [] then .ok contents else .error .notDirectory

/-- The root: the directories that every system has, without what differs between systems. The null
device reads as an empty file. -/
def root : Directory :=
  let empty := ["bin", "etc", "home", "lib", "mnt", "opt", "proc", "root", "run", "sbin", "srv", "sys",
    "tmp", "usr", "var"]
  ("dev", .directory [("null", .file #[])]) :: empty.map (·, .directory [])

/-- A directory of files. -/
def ofFiles (files : List (String × Array UInt8)) : Directory :=
  files.map fun (name, contents) ↦ (name, .file contents)

/-- What reading a path gives in a directory of files that lies two levels below the root. -/
def read (files : List (String × Array UInt8)) (path : String) :
    Except FileError (Array UInt8) :=
  let parts := path.splitOn "/"
  if path = "" then .error .notFound
  else if maxPathSize < path.utf8ByteSize then .error .nameTooLong
  else if path.startsWith "/" then follow root [] parts
  else follow (ofFiles files) [[], root] parts

end Directory

end GameBoy
