import TokenScan.Proofs.Scan.Arithmetic
import TokenScan.Scan.Session

/-!
Scans that share a store. A scan never looks at what its handler holds, so whatever becomes of its
reports it answers as it would alone, and it adds to the store just what it would report alone.
What is kept in a session is said here scan by scan. The reports of a scan that is stopped are those
of the text before the character that stops it, and the error at that character.
-/

namespace TokenScan

namespace Source

open Piece Arithmetic

/-- A scan that is stopped has reported all that the text before some character is complained of,
which only is warned of, and that character last. -/
theorem exists_stop_of_scan_eq_error {configuration : Configuration} {source : Source}
    {error : LexError} (h : (source.scan configuration).1 = .error error) :
    ∃ before c after tokens warnings, source.chars = before ++ c :: after ∧
      (ofChars source.path before).scan configuration = (.ok tokens, warnings) ∧
      (∀ diagnostic ∈ warnings, diagnostic.severity = .warning) ∧
      source.scan configuration = (.error .fatal, warnings ++ [stop before c]) := by
  obtain ⟨grammar, matching⟩ := configuration
  cases grammar with
  | full =>
    have hfatal := anyFatal_pieces_full matching source.chars
    rw [scan_eq, resultOf, if_neg (Bool.eq_false_iff.mp hfatal)] at h
    cases h
  | arithmetic =>
    have hrejects : ¬ ∀ c ∈ source.chars, Accepts c := by
      intro haccepts
      obtain ⟨tokens, htokens⟩ := (@exists_scan_eq_ok_iff matching source).mpr haccepts
      rw [htokens] at h
      cases h
    obtain ⟨before, c, after, hchars, hbefore, hc⟩ := exists_first_of_not_forall hrejects
    have hfatal := (@anyFatal_pieces_eq_false_iff matching before).mpr hbefore
    obtain ⟨htext, hcut⟩ := areCut_pieces hfatal
    refine ⟨before, c, after, _, _, hchars,
      scan_eq_ok_iff.mpr ⟨_, hcut, htext.symm, rfl, rfl⟩, ?_, ?_⟩
    · intro diagnostic hdiagnostic
      exact ((mem_diagnostics_iff_isOverflow hcut).mp hdiagnostic).severity_eq
    · rw [scan_eq, hchars, pieces_of_not_accepts hbefore hc after, diagnostics_append, htext]
      simp [resultOf, anyFatal, isFatal, diagnostics, diagnostic?, problem?, stop]

end Source

namespace Session.Request

/-- The scan by itself: its answer, and what it reports to an empty store. -/
def alone (request : Request) : Except LexError (List Token) × Array Report :=
  tokenize request.configuration Handler.store request.source #[]

/-- What is kept after some scans in order, given the reports kept before. -/
def keptAfter (kept : Array Report) (requests : List Request) : Array Report :=
  requests.foldl (fun kept request => (request.run kept).2) kept

theorem alone_eq_scan (request : Request) :
    request.alone =
      ((request.source.scan request.configuration).1,
        ((request.source.scan request.configuration).2.map
          (Report.mk request.source)).toArray) := by
  rw [alone, tokenize_eq_scan, store_receiveAll, Array.empty_append]

/-- Whatever its handler is and holds, a scan answers as it would alone, and hands over what it
would report alone. -/
theorem tokenize_eq_alone {Held : Type} (request : Request) (handler : Handler Held)
    (held : Held) :
    tokenize request.configuration handler request.source held =
      (request.alone.1, handler.receiveAll held request.alone.2.toList) := by
  rw [tokenize_eq_scan, alone_eq_scan]

theorem discard_receiveAll {Held : Type} (held : Held) (reports : List Report) :
    Handler.discard.receiveAll held reports = held := by
  induction reports with
  | nil => rfl
  | cons report reports ih => exact ih

/-- One scan answers as it would alone, and what it would report alone is kept behind the reports
before it, unless it is dropped. -/
theorem run_eq (request : Request) (kept : Array Report) :
    request.run kept =
      (request.alone.1, kept ++ if request.dropped then #[] else request.alone.2) := by
  unfold run
  cases request.dropped with
  | true =>
    rw [if_pos rfl, if_pos rfl, tokenize_eq_alone, discard_receiveAll, Array.append_empty]
  | false =>
    rw [if_neg Bool.false_ne_true, if_neg Bool.false_ne_true, tokenize_eq_alone, store_receiveAll,
      Array.toArray_toList]

theorem keptAfter_append (kept : Array Report) (first second : List Request) :
    keptAfter kept (first ++ second) = keptAfter (keptAfter kept first) second :=
  List.foldl_append

/-- Whatever scans are made, the reports kept before them stay as they are. -/
theorem isPrefix_keptAfter (kept : Array Report) (requests : List Request) :
    kept.toList <+: (keptAfter kept requests).toList := by
  induction requests generalizing kept with
  | nil => exact List.prefix_rfl
  | cons request requests ih =>
    have hfirst : kept.toList <+: (request.run kept).2.toList := by
      rw [run_eq, Array.toList_append]
      exact List.prefix_append _ _
    exact hfirst.trans (ih (request.run kept).2)

theorem runAll_cons (kept : Array Report) (request : Request) (requests : List Request) :
    runAll kept (request :: requests) =
      (⟨(request.run kept).1, (request.run kept).2.size⟩ ::
          (runAll (request.run kept).2 requests).1,
        (runAll (request.run kept).2 requests).2) := rfl

theorem snd_runAll (kept : Array Report) (requests : List Request) :
    (runAll kept requests).2 = keptAfter kept requests := by
  induction requests generalizing kept with
  | nil => rfl
  | cons request requests ih =>
    rw [runAll_cons]
    exact ih (request.run kept).2

/-- Each scan finds in the store what the scans before it left there. -/
theorem getElem?_fst_runAll (kept : Array Report) (requests : List Request) (index : Nat) :
    (runAll kept requests).1[index]? =
      requests[index]?.map fun request =>
        { result := (request.run (keptAfter kept (requests.take index))).1
          stored := (keptAfter kept (requests.take (index + 1))).size } := by
  induction requests generalizing kept index with
  | nil => rfl
  | cons request requests ih =>
    cases index with
    | zero => rfl
    | succ index =>
      rw [runAll_cons, List.getElem?_cons_succ, List.getElem?_cons_succ, ih, List.take_succ_cons,
        List.take_succ_cons]
      rfl

/-- The scans of a session do not disturb each other. Whatever its handler is and holds, a scan
answers as it would alone, and hands over what it would report alone. So behind each scan of a
session the store is what it was before it, with all that the scan reports alone behind that, or
with nothing if the scan is dropped, and its answer is the one it gives alone. What is once in the
store stays there as it is. A scan that is stopped reports what the text before the character that
stops it is complained of, and last that character. -/
theorem runAll_undisturbed (kept : Array Report) (requests : List Request) :
    (∀ (request : Request) (Held : Type) (handler : Handler Held) (held : Held),
      tokenize request.configuration handler request.source held =
        (request.alone.1, handler.receiveAll held request.alone.2.toList)) ∧
    (∀ (index : Nat) (request : Request), requests[index]? = some request →
      keptAfter kept (requests.take (index + 1)) =
        keptAfter kept (requests.take index) ++
          if request.dropped then #[] else request.alone.2) ∧
    (∀ index : Nat, (runAll kept requests).1[index]? =
      requests[index]?.map fun request =>
        { result := request.alone.1
          stored := (keptAfter kept (requests.take (index + 1))).size }) ∧
    (runAll kept requests).2 = keptAfter kept requests ∧
    (∀ fewer more : Nat, fewer ≤ more →
      (keptAfter kept (requests.take fewer)).toList <+:
        (keptAfter kept (requests.take more)).toList) ∧
    ∀ (request : Request) (error : LexError), request.alone.1 = .error error →
      ∃ before c after tokens warnings, request.source.chars = before ++ c :: after ∧
        (Source.ofChars request.source.path before).scan request.configuration =
          (.ok tokens, warnings) ∧
        (∀ diagnostic ∈ warnings, diagnostic.severity = .warning) ∧
        request.alone = (.error .fatal,
          ((warnings ++ [Arithmetic.stop before c]).map (Report.mk request.source)).toArray) := by
  refine ⟨fun request _ => request.tokenize_eq_alone, ?_, ?_, snd_runAll kept requests, ?_, ?_⟩
  · intro index request hrequest
    rw [List.take_add_one, hrequest, keptAfter_append]
    exact congrArg Prod.snd (request.run_eq _)
  · intro index
    rw [getElem?_fst_runAll]
    simp only [run_eq]
  · intro fewer more hle
    have hmore : requests.take more =
        requests.take fewer ++ (requests.drop fewer).take (more - fewer) := by
      rw [← List.take_add, Nat.add_sub_cancel' hle]
    rw [hmore, keptAfter_append]
    exact isPrefix_keptAfter _ _
  · intro request error herror
    rw [alone_eq_scan] at herror
    obtain ⟨before, c, after, tokens, warnings, hchars, hbefore, hwarnings, hscan⟩ :=
      Source.exists_stop_of_scan_eq_error herror
    refine ⟨before, c, after, tokens, warnings, hchars, hbefore, hwarnings, ?_⟩
    rw [alone_eq_scan, hscan]

end Session.Request

end TokenScan
