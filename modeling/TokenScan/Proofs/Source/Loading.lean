import TokenScan.Proofs.Text.Utf8
import TokenScan.Source.Loading

/-!
Loading a source. A file is loaded as if what the system answers about it were read from a stream.
What comes of that is known for an error of the system, for bytes that are no text, and for the form
of a text.
-/

namespace TokenScan

open Text

namespace Source

theorem ofBytes_eq_ok_iff {path : String} {bytes : List UInt8} {source : Source} :
    ofBytes path bytes = .ok source ↔
      ∃ text : String, Utf8.encode text.toList = bytes ∧ source = ofText path text := by
  constructor
  · intro h
    cases hdecode : Utf8.decode bytes with
    | error error =>
      rw [ofBytes, hdecode] at h
      cases h
    | ok chars =>
      rw [ofBytes, hdecode] at h
      cases h
      refine ⟨String.ofList chars, ?_, ?_⟩
      · rw [String.toList_ofList, Utf8.decode_eq_ok_iff.mp hdecode]
      · rw [ofText, String.toList_ofList]
  · rintro ⟨text, rfl, rfl⟩
    rw [ofBytes, Utf8.decode_eq_ok_iff.mpr rfl]
    rfl

theorem ofBytes_eq_error_iff {path : String} {bytes : List UInt8} {error : Utf8.Error} :
    ofBytes path bytes = .error error ↔ Utf8.decode bytes = .error error := by
  rw [ofBytes]
  cases Utf8.decode bytes with
  | error other => simp [Except.map]
  | ok chars => simp [Except.map]

theorem read_error (path : String) (error : SystemError) :
    read path (.error error) = .error (.system error) := rfl

theorem read_of_decode_eq_error {bytes : List UInt8} {error : Utf8.Error}
    (h : Utf8.decode bytes = .error error) (path : String) :
    read path (.ok bytes) = .error (.encoding error) := by
  rw [read, ofBytes_eq_error_iff.mpr h]
  rfl

theorem read_encode (path text : String) :
    read path (.ok (Utf8.encode text.toList)) = .ok (ofText path text) := by
  rw [read, ofBytes_eq_ok_iff.mpr ⟨text, rfl, rfl⟩]
  rfl

theorem read_eq_ok_iff {path : String} {bytes : List UInt8} {source : Source} :
    read path (.ok bytes) = .ok source ↔
      ∃ text : String, Utf8.encode text.toList = bytes ∧ source = ofText path text := by
  rw [← ofBytes_eq_ok_iff, read]
  cases ofBytes path bytes <;> simp [Except.mapError]

end Source

/-- What the bytes of a file are, or the first error on the way to them. A file without any has no
mapping to look at. -/
inductive File.Gives (file : File) : Except SystemError (List UInt8) → Prop where
  | unmeasured {error : SystemError} : file.length = .error error → file.Gives (.error error)
  | empty : file.length = .ok 0 → file.Gives (.ok [])
  | mapped {length : Nat} : file.length = .ok length → 0 < length → file.Gives file.mapped

namespace File

variable {file : File} {bytes : List UInt8} {result : Except SystemError (List UInt8)}

theorem exists_gives (file : File) : ∃ result, file.Gives result := by
  cases hlength : file.length with
  | error error => exact ⟨_, .unmeasured hlength⟩
  | ok length =>
    rcases Nat.eq_zero_or_pos length with rfl | hpos
    · exact ⟨_, .empty hlength⟩
    · exact ⟨_, .mapped hlength hpos⟩

theorem Holds.gives (h : file.Holds bytes) : file.Gives (.ok bytes) := by
  cases bytes with
  | nil => exact .empty h.length
  | cons first bytes =>
    rw [← h.mapped (List.cons_ne_nil first bytes)]
    exact .mapped h.length (Nat.succ_pos _)

theorem Gives.load_eq_read (h : file.Gives result) (path : String) :
    Source.load path file = Source.read path result := by
  cases h with
  | unmeasured hlength =>
    rw [Source.load, map?, hlength]
    rfl
  | empty hlength =>
    rw [Source.load, map?, hlength]
    exact (Source.read_encode path "").symm
  | mapped hlength hpos =>
    have hmap : file.map? = file.mapped.map some := by
      rw [map?, hlength]
      exact if_neg (Nat.ne_of_gt hpos)
    rw [Source.load, hmap]
    cases file.mapped <;> rfl

theorem Holds.load_eq_read (h : file.Holds bytes) (path : String) :
    Source.load path file = Source.read path (.ok bytes) :=
  h.gives.load_eq_read path

end File

end TokenScan
