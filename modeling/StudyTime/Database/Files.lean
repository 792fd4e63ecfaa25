/-
**Databases in files.**

A path names a file below some folders.  A database is opened at a path by creating the folders on
the way, where they are missing, and the file, where it is missing.  A file in the way of a folder,
a folder in the place of the file, and a file that holds something else are in each case refused.

Main definitions:

* `FileTree` — folders and files;
* `FileTree.get?`, `FileTree.makeFolders`, `FileTree.putFile` — looking up and changing them;
* `FileTree.openDatabase` — opening a database at a path.
-/

import StudyTime.Database.Migration

set_option relaxedAutoImplicit false
set_option autoImplicit false

namespace StudyTime

/-- What a file holds. -/
inductive Content where
  /-- A database; an empty file is a database that was just created. -/
  | tables (t : Tables)
  | foreign

/-- A folder with its children, or a file. -/
inductive FileTree where
  | folder (children : List (String × FileTree))
  | file (content : Content)

namespace FileTree

/-- The child with this name. -/
def child? (children : List (String × FileTree)) (name : String) : Option FileTree :=
  (children.find? fun c => c.1 == name).map (·.2)

/-- The children with another one in place of the one with this name. -/
def putChild (children : List (String × FileTree)) (name : String) (t : FileTree) :
    List (String × FileTree) :=
  (name, t) :: children.filter fun c => c.1 != name

/-- What is at a path. -/
def get? : List String → FileTree → Option FileTree
  | [], t => some t
  | _ :: _, .file _ => none
  | p :: ps, .folder cs =>
    match child? cs p with
    | none => none
    | some t => get? ps t

/-- Creates the folders along a path, unless a file is in the way. -/
def makeFolders : List String → FileTree → Option FileTree
  | _, .file _ => none
  | [], .folder cs => some (.folder cs)
  | p :: ps, .folder cs =>
    match makeFolders ps ((child? cs p).getD (.folder [])) with
    | none => none
    | some t => some (.folder (putChild cs p t))

/-- Puts something at a path, in place of what is there. -/
def put (new : FileTree) : List String → FileTree → FileTree
  | [], _ => new
  | _ :: _, .file content => .file content
  | p :: ps, .folder cs =>
    .folder (putChild cs p (put new ps ((child? cs p).getD (.folder []))))

/-- Puts a database into the file at a path. -/
def putTables (path : List String) (t : Tables) (tree : FileTree) : FileTree :=
  put (.file (.tables t)) path tree

/-- How a path below a root is said. -/
def showPath (root : String) (path : List String) : String :=
  path.foldl (fun shown name => shown ++ "/" ++ name) root

/-- Opens the database with this content in the file at a path. -/
def openTables (path : List String) (t : Tables) (tree : FileTree) :
    Except Failure Database × FileTree :=
  match Database.open? t with
  | .error f => (.error f, putTables path t tree)
  | .ok db => (.ok db, putTables path db.tables tree)

/-- Opens the database at a path. -/
def openDatabase (root : String) (path : List String) (tree : FileTree) :
    Except Failure Database × FileTree :=
  match makeFolders path.dropLast tree with
  | none => (.error (.inside (.databaseFolder (showPath root path.dropLast)) .file), tree)
  | some tree =>
    match get? path tree with
    | none => openTables path .blank tree
    | some (.folder _) => (.error (.inside .openDatabase .engine), tree)
    | some (.file .foreign) =>
      (.error (.inside .migrate (.inside .readVersion .engine)), tree)
    | some (.file (.tables t)) => openTables path t tree

end FileTree

end StudyTime
