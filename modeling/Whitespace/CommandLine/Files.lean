import Whitespace.Machine.Streams

namespace Whitespace.CommandLine

inductive Contents where
  | file (bytes : List UInt8)
  | directory
  deriving DecidableEq, Repr

abbrev Files := String → Except SystemError Contents

inductive ReadError where
  | system (error : SystemError)
  | invalidText
  deriving DecidableEq, Repr

def ReadError.message : ReadError → String
  | .system error => error.message
  | .invalidText => "stream did not contain valid UTF-8"

def textOfBytes (bytes : List UInt8) : Except ReadError String :=
  match Text.Utf8.decode? bytes with
  | some text => .ok (String.ofList text)
  | none => .error .invalidText

/-- The text of a file. A directory can be opened but not read. -/
def Files.readText (files : Files) (path : String) : Except ReadError String :=
  match files path with
  | .ok (.file bytes) => textOfBytes bytes
  | .ok .directory => .error (.system .isDirectory)
  | .error error => .error (.system error)

/-- Files and empty directories by the names that lead to them from the root, and the directory from
which relative paths start. -/
structure FileTree where
  files : List (List String × List UInt8) := []
  directories : List (List String) := []
  current : List String := []

namespace FileTree

def names (path : String) : List String := path.splitOn "/"

def contents? (tree : FileTree) (place : List String) : Option Contents :=
  match tree.files.find? (·.1 == place) with
  | some (_, bytes) => some (.file bytes)
  | none =>
    let known := tree.current :: tree.directories ++ tree.files.map (·.1)
    if known.any place.isPrefixOf then some .directory else none

/-- Follows names from a place. Only directories have anything in them, themselves and their parents
included. -/
def follow (tree : FileTree) (place : List String) : List String → Except SystemError Contents
  | [] =>
    match tree.contents? place with
    | some contents => .ok contents
    | none => .error .notFound
  | name :: rest =>
    match tree.contents? place with
    | none => .error .notFound
    | some (.file _) => .error .notDirectory
    | some .directory =>
      if name = "" ∨ name = "." then tree.follow place rest
      else if name = ".." then tree.follow place.dropLast rest
      else if 255 < name.utf8ByteSize then .error .nameTooLong
      else tree.follow (place ++ [name]) rest

def openPath (tree : FileTree) : Files := fun path =>
  if path.contains '\x00' then .error .zeroInName
  else if path.isEmpty then .error .notFound
  else if 4096 ≤ path.utf8ByteSize then .error .nameTooLong
  else tree.follow (if path.startsWith "/" then [] else tree.current) (names path)

end FileTree

end Whitespace.CommandLine
