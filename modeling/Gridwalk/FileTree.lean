import Gridwalk.Source
import Gridwalk.Text.Fields
import Gridwalk.Text.Utf8

/-!
# Files below a directory

A file tree is the content of a directory: files and directories with their paths from there. A
unit is the file with its name and an extension. Paths are walked name by name; `.` and an empty
name stay where they are, `..` goes back, and every name but the last must be that of a directory.
-/

namespace Gridwalk

abbrev Path := List String

def Path.step (here : Path) (name : String) : Path :=
  if name = "" ∨ name = "." then here
  else if name = ".." then here.dropLast
  else here ++ [name]

def Path.stops (here : Path) : List String → List Path
  | [] => []
  | name :: rest => here.step name :: (here.step name).stops rest

structure FileTree where
  files : List (Path × List UInt8)
  directories : List Path

namespace FileTree

def names (path : String) : List String :=
  (Text.fields '/' path.toList).map String.ofList

/-- Files written one after the other, each with the directories that its path passes through. -/
def ofFiles (files : List (String × List UInt8)) : FileTree where
  files := files.map fun (path, bytes) => ((names path).foldl Path.step [], bytes)
  directories := files.flatMap fun (path, _) => Path.stops [] (names path).dropLast

/-- The content of the file at a path; of several the last. -/
def file? (tree : FileTree) (path : Path) : Option (List UInt8) := tree.files.reverse.lookup path

def walk? (tree : FileTree) : Path → List String → Option (List UInt8)
  | _, [] => none
  | here, [name] => tree.file? (here ++ [name])
  | here, name :: rest =>
    if name = "" ∨ name = "." then tree.walk? here rest
    else if name = ".." then
      if here = [] then none else tree.walk? here.dropLast rest
    else if here ++ [name] ∈ tree.directories then tree.walk? (here ++ [name]) rest
    else none

/-- How long a path may be, in bytes and with the `./` that it starts from. -/
def maxPathLength : Nat := 4095

def open? (tree : FileTree) (path : String) : Option (List UInt8) :=
  if path.toList.head? = some '/' ∨ maxPathLength < path.utf8ByteSize + 2 then none
  else tree.walk? [] (names path)

theorem mem_of_file? {tree : FileTree} {path : Path} {bytes : List UInt8}
    (h : tree.file? path = some bytes) : bytes ∈ tree.files.map (·.2) := by
  obtain ⟨before, after, he, -⟩ := List.lookup_eq_some_iff.1 h
  have hm : (path, bytes) ∈ tree.files.reverse := by simp [he]
  exact List.mem_map.2 ⟨_, List.mem_reverse.1 hm, rfl⟩

theorem mem_of_walk? {tree : FileTree} {here : Path} {parts : List String} {bytes : List UInt8}
    (h : tree.walk? here parts = some bytes) : bytes ∈ tree.files.map (·.2) := by
  fun_induction walk? tree here parts with
  | case1 => nomatch h
  | case2 => exact mem_of_file? h
  | case3 _ _ _ _ _ ih => exact ih h
  | case4 => nomatch h
  | case5 _ _ _ _ _ ih => exact ih h
  | case6 _ _ _ _ _ _ _ ih => exact ih h
  | case7 => nomatch h

theorem mem_of_open? {tree : FileTree} {path : String} {bytes : List UInt8}
    (h : tree.open? path = some bytes) : bytes ∈ tree.files.map (·.2) := by
  unfold open? at h
  split at h
  next => nomatch h
  next => exact mem_of_walk? h

def readText (tree : FileTree) (path : String) : Except String String :=
  match tree.open? path with
  | none => .error "no such file"
  | some bytes => (Utf8.decodeText? bytes).elim (.error "not a text in UTF-8") .ok

def source (tree : FileTree) (extension : String) : Source where
  fileName unit := unit ++ "." ++ extension
  read unit := tree.readText (unit ++ "." ++ extension)
  texts := tree.files.filterMap fun (_, bytes) => Utf8.decodeText? bytes
  mem_texts unit text h := by
    unfold readText at h
    split at h
    next => nomatch h
    next bytes hopen =>
      obtain ⟨file, hfile, rfl⟩ := List.mem_map.1 (mem_of_open? hopen)
      refine List.mem_filterMap.2 ⟨file, hfile, ?_⟩
      cases hd : Utf8.decodeText? file.2 with
      | none => simp [hd] at h
      | some found => simpa [hd] using h

end FileTree

end Gridwalk
