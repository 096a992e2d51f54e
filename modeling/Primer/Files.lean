import Primer.Console.Stream

/-!
# Reading files

What reading a file can give, and how a path is resolved in a current directory that holds plain
files only.
-/

set_option autoImplicit false

namespace Primer

/-- What reading a file gives. -/
inductive FileRead where
  | content (bytes : List UInt8)
  | missing
  | directory
  | notDirectory
  | nameTooLong
  | failed (problem : String)
deriving DecidableEq, Repr

namespace FileRead

/-- The text of a file, or what is wrong with it. -/
def text : FileRead → Except String String
  | content bytes =>
    match Stream.decode? bytes with
    | some s => .ok s
    | none => .error Stream.invalidText
  | missing => .error "No such file or directory (os error 2)"
  | directory => .error "Is a directory (os error 21)"
  | notDirectory => .error "Not a directory (os error 20)"
  | nameTooLong => .error "File name too long (os error 36)"
  | failed problem => .error problem

/-- Whether a part of a path names no file: it stays in the directory or leaves it upwards. -/
def isStep (part : String) : Bool :=
  part = "" || part = "." || part = ".."

/-- Follows the parts of a path from the current directory. -/
def follow (files : List (String × List UInt8)) : List String → FileRead
  | [] => directory
  | part :: rest =>
    if part = "" ∨ part = "." then follow files rest
    else if part = ".." then if rest.all isStep then directory else missing
    else if 255 < part.utf8ByteSize then nameTooLong
    else
      match files.lookup part with
      | none => missing
      | some bytes => if rest.isEmpty then content bytes else notDirectory

/-- Reads a file by its path, in a current directory that holds only the given files. Nothing is
known to stand outside of it. -/
def among (files : List (String × List UInt8)) (path : String) : FileRead :=
  if path = "" then missing
  else if 4096 ≤ path.utf8ByteSize then nameTooLong
  else
    match path.splitOn "/" with
    | "" :: parts => if parts.all isStep then directory else missing
    | parts => follow files parts

end FileRead

end Primer
