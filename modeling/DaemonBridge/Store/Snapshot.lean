import DaemonBridge.Directory.Wire
import DaemonBridge.Json.Reader
import DaemonBridge.Store
import DaemonBridge.Text.Utf8

/-!
# Snapshot files

A store that reads a directory from a JSON file, anew for each request. A missing file is an empty
directory, and a file that is not the text of a whole directory gives no part of one.
-/

namespace DaemonBridge

/-- What a path leads to. -/
inductive PathContent where
  | missing
  | folder
  | file (bytes : List UInt8)
  deriving DecidableEq, Repr

/-- The directory in the file at a path. -/
def PathContent.directory (path : String) : PathContent → Except StoreError Directory
  | .missing => .ok {}
  | .folder => .error (.unavailable (path ++ ": Is a directory (os error 21)"))
  | .file bytes =>
    match Text.decode? bytes with
    | none => .error (.unavailable (path ++ ": stream did not contain valid UTF-8"))
    | some text =>
      match (Json.Document.ofChars text).decode Directory.decoder with
      | .ok directory => .ok directory
      | .error _ => .error (.corrupt path)

/-- The store that reads the file at a path. -/
def PathContent.store (path : String) (content : PathContent) : Store :=
  .ofLoad (content.directory path)

/-- A file that holds a directory answers what the directory holds. -/
theorem PathContent.loginsOf_store {path : String} {content : PathContent} {d : Directory}
    (h : content.directory path = .ok d) (server : String) :
    (content.store path).loginsOf server = .ok (d.loginsOf server) := by
  simp only [store, Store.ofLoad, h, Except.map]

end DaemonBridge
