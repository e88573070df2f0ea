import TokenScan.Source.Basic

/-!
Where sources come from. The operating system opens files, maps them to memory and reads streams,
and it may refuse any of this. What it answers is a parameter here, so what is said of a source
holds of every file system. `File.Holds` states what a system owes to a file with known bytes.
-/

namespace TokenScan

open Text

structure SystemError where
  message : String
deriving Repr, DecidableEq

/-- An open file by what the system answers about it: the number of its bytes, and the bytes that it
is mapped to. -/
structure File where
  length : Except SystemError Nat
  mapped : Except SystemError (List UInt8)

namespace File

/-- A file with the given bytes. A mapping is known only where there are bytes to be mapped. -/
structure Holds (file : File) (bytes : List UInt8) : Prop where
  length : file.length = .ok bytes.length
  mapped : bytes ≠ [] → file.mapped = .ok bytes

/-- The bytes to be decoded. A file without any is not mapped. -/
def map? (file : File) : Except SystemError (Option (List UInt8)) :=
  file.length.bind fun length => if length = 0 then .ok none else file.mapped.map some

/-- A file with the given bytes, as systems keep it that map nothing from an empty file. -/
def ofBytes (bytes : List UInt8) : File where
  length := .ok bytes.length
  mapped := if bytes.isEmpty then .error ⟨"memory map must have a non-zero length"⟩ else .ok bytes

theorem holds_ofBytes (bytes : List UInt8) : (ofBytes bytes).Holds bytes := by
  refine ⟨rfl, fun hne => ?_⟩
  rw [ofBytes, if_neg (mt List.isEmpty_iff.mp hne)]

end File

inductive LoadError where
  | system (error : SystemError)
  | encoding (error : Utf8.Error)
deriving Repr, DecidableEq

def LoadError.message : LoadError → String
  | system error => error.message
  | encoding error => error.message

namespace Source

def load (path : String) (file : File) : Except LoadError Source :=
  match file.map? with
  | .error error => .error (.system error)
  | .ok none => .ok (ofChars path [])
  | .ok (some bytes) => (ofBytes path bytes).mapError .encoding

/-- The source whose text is what a stream gives up to its end. -/
def read (path : String) (stream : Except SystemError (List UInt8)) : Except LoadError Source :=
  match stream with
  | .error error => .error (.system error)
  | .ok bytes => (ofBytes path bytes).mapError .encoding

/-- The source whose text is first written to a new file. The system chooses the path. -/
def temporary (create : List UInt8 → Except SystemError (String × File)) (text : String) :
    Except LoadError Source :=
  match create (Utf8.encode text.toList) with
  | .error error => .error (.system error)
  | .ok (path, file) => load path file

end Source

end TokenScan
