import Placeholder.Command.Failure

/-! Directories held in memory, and what is read at a path in them. -/
namespace Placeholder

inductive Entry
  | file (bytes : ByteArray)
  | directory

/-- The entries of a directory and of those below it, by their paths. -/
abbrev Directory := List (String × Entry)

inductive Place
  | file (bytes : ByteArray)
  /-- The directory itself, or one below it, by the names that lead there. -/
  | inside (names : List String)
  /-- A directory above, or the root. Nothing is known of what else is there. -/
  | outside

namespace Directory

/-- The names along a path. A dot, or nothing between two slashes, names nothing. -/
def names (path : String) : List String :=
  (path.splitOn "/").filter fun name => name != "" && name != "."

/-- The place at the given names. Those on the way to an entry are directories. -/
def place? (entries : Directory) (path : List String) : Option Place :=
  match entries.find? fun (name, _) => names name == path with
  | some (_, .file bytes) => some (.file bytes)
  | some (_, .directory) => some (.inside path)
  | none => if entries.any fun (name, _) => path.isPrefixOf (names name) then some (.inside path) else none

/-- One step of a walk. No step leads on from a file, not even one that stays where it is. -/
def step (entries : Directory) (place : Place) (name : String) : Except ReadError Place :=
  match place with
  | .file _ => .error .notDirectory
  | .inside path =>
    if name = "" ∨ name = "." then .ok place
    else if name = ".." then .ok (if path = [] then .outside else .inside path.dropLast)
    else
      match place? entries (path ++ [name]) with
      | some next => .ok next
      | none => .error .notFound
  | .outside => if name = "" ∨ name = "." ∨ name = ".." then .ok .outside else .error .notFound

/-- The text of the file at a path. A path that starts with a slash starts at the root. -/
def read (entries : Directory) (path : String) : Except ReadError String := do
  if path = "" then .error .notFound
  else
    let start := if path.startsWith "/" then .outside else .inside []
    match ← (path.splitOn "/").foldlM (step entries) start with
    | .file bytes => decodeText bytes
    | .inside _ | .outside => .error .isDirectory

end Directory
end Placeholder
