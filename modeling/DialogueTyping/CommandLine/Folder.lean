import DialogueTyping.CommandLine.Basic

set_option autoImplicit false

namespace DialogueTyping.CommandLine

structure StoredFile where
  path : List String
  content : ByteArray

/-- Files below one folder, and the folders on the way to them. -/
structure Folder where
  files : List StoredFile

namespace Folder

def ofFiles (files : List (String × ByteArray)) : Folder :=
  ⟨files.map fun (path, content) => ⟨pathParts path, content⟩⟩

def file? (folder : Folder) (place : List String) : Option StoredFile :=
  folder.files.find? (·.path = place)

/-- Whether a place is a folder: the top, or one on the way to a file. -/
def isFolder (folder : Folder) (place : List String) : Bool :=
  place.isEmpty || folder.files.any fun file =>
    place.isPrefixOf file.path && place.length < file.path.length

/-- What is found at a path outside the folder: only the folders above it are known. -/
def outside (parts : List String) : ReadFault :=
  if parts.all (["", ".", ".."].contains ·) then .isDirectory else .notFound

/-- The place that a path leads to from the folder `place`. -/
def follow (folder : Folder) (place : List String) : List String → Except ReadFault (List String)
  | [] => .ok place
  | part :: parts =>
    if !folder.isFolder place then .error .notDirectory
    else if part = "" || part = "." then follow folder place parts
    else if part = ".." then
      if place.isEmpty then .error (outside parts) else follow folder place.dropLast parts
    else
      let below := place ++ [part]
      if folder.isFolder below || (folder.file? below).isSome then follow folder below parts
      else .error .notFound

def read (folder : Folder) (path : String) : Except ReadFault String := do
  if path = "" then throw .notFound
  if path.startsWith "/" then throw (outside (path.splitOn "/"))
  let place ← folder.follow [] (path.splitOn "/")
  if folder.isFolder place then throw .isDirectory
  match folder.file? place with
  | none => throw .notFound
  | some file =>
    match String.fromUTF8? file.content with
    | some text => return text
    | none => throw .invalidText

def run (folder : Folder) (arguments : List String) : Outcome :=
  match Invocation.ofArguments? arguments with
  | none => misused
  | some invocation =>
    invocation.run (folder.read invocation.declarationsPath)
      (folder.read invocation.expressionsPath)

end Folder

end DialogueTyping.CommandLine
