import Lockstep.Files.Disk
import Lockstep.Json.Reader
import Lockstep.Snapshot.Build
import Lockstep.Text.Basic
import Lockstep.Text.Utf8

/-!
# Lockstep — snapshot files

A snapshot is a file of UTF-8 that holds one JSON document. Its line ends are
unified before it is read, so that places in it are counted in line feeds.

Most of what can be wrong with a snapshot is reported to the user as such. Bytes
that are no text, values beyond what the reader takes, and paths that no file can
have, are not: they end the run (`SnapshotError.isReported`). How deep the document
may be nested depends on the stack that is left to the reader, so that it is given.
-/

namespace Lockstep

/-- Why a snapshot file gives no build. -/
inductive SnapshotError where
  | unreadable (path : Path) (error : FileError)
  | notText (error : Utf8.DecodeError)
  | notJson (path : Path) (content : Text) (error : Json.ReadError)
  | document (error : DocumentError)
  deriving DecidableEq, Repr

namespace SnapshotError

/-- Whether the error is reported as one of the snapshot. -/
def isReported : SnapshotError → Bool
  | .unreadable _ error => error.fault.isReported
  | .notText _ => false
  | .notJson _ _ (.malformed _ _) => true
  | .notJson _ _ _ => false
  | .document _ => true

/-- What is reported about a snapshot file. -/
def message : SnapshotError → Text
  | .unreadable path error =>
    if error.fault.isReported then
      "cannot read snapshot ".text ++ path.text ++ ": ".text ++ error.message
    else error.message
  | .notText error => error.message
  | .notJson path content (.malformed fault offset) =>
    "snapshot ".text ++ path.text ++ " is not valid JSON: ".text ++
      (Json.ReadError.malformed fault offset).message content
  | .notJson _ content error => error.message content
  | .document error => error.message

end SnapshotError

namespace Build

/-- The build of the bytes of a snapshot file. -/
def ofBytes (depth : Nat) (path : Path) (bytes : List UInt8) : Except SnapshotError Build :=
  match Utf8.decode bytes with
  | .error e => .error (.notText e)
  | .ok raw =>
    let content := raw.unifyLineEnds
    match Json.read depth content with
    | .error e => .error (.notJson path content e)
    | .ok d =>
      match ofDocument d with
      | .error e => .error (.document e)
      | .ok b => .ok b

/-- The build of a snapshot file. -/
def load (depth : Nat) (d : Disk) (path : Path) : Except SnapshotError Build :=
  match d.read path with
  | .error e => .error (.unreadable path e)
  | .ok bytes => ofBytes depth path bytes

end Build

end Lockstep
