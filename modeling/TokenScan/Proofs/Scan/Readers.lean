import TokenScan.Proofs.Scan.Bounds
import TokenScan.Proofs.Text.Parts
import TokenScan.Scan.Reader

/-!
Readers. Whatever is asked of a reader, its cursor and all that it has saved have come to where they
are by reading their source, and this is all that has to be known of a run. A restore goes with the
save that it undoes: what is between the two is balanced, and the reader is after the restore what
it was before the save.
-/

namespace TokenScan

open Text

namespace Text

def indexed (start : Nat) : List Char → List (Nat × Char)
  | [] => []
  | c :: rest => (start, c) :: indexed (start + c.utf8Size) rest

theorem indexed_append (start : Nat) (first second : List Char) :
    indexed start (first ++ second) =
      indexed start first ++ indexed (start + byteLength first) second := by
  induction first generalizing start with
  | nil => rfl
  | cons c first ih =>
    rw [List.cons_append, indexed, ih, indexed, byteLength_cons, Nat.add_assoc, List.cons_append]

theorem le_of_mem_indexed {start : Nat} {text : List Char} {item : Nat × Char}
    (h : item ∈ indexed start text) : start ≤ item.1 ∧ item.1 < start + byteLength text := by
  induction text generalizing start with
  | nil => cases h
  | cons c text ih =>
    have hsize := c.utf8Size_pos
    rw [byteLength_cons]
    rcases List.mem_cons.mp h with rfl | hlater
    · dsimp only
      omega
    · have hbounds := ih hlater
      omega

end Text

def Source.itemsFrom (source : Source) (offset : Nat) : List (Nat × Char) :=
  (indexed 0 source.chars).filter fun item => offset ≤ item.1

/-- Two offsets make a span if they are in order and neither lies inside a character. -/
theorem Source.isSome_span?_iff {source : Source} {start stop : Nat} :
    (source.span? start stop).isSome ↔
      source.IsBoundary start ∧ source.IsBoundary stop ∧ start ≤ stop := by
  rw [span?, Option.isSome_map, Option.isSome_iff_exists]
  constructor
  · rintro ⟨between, hslice⟩
    obtain ⟨before, after, hchars, hstart, hstop⟩ := slice?_eq_some_iff.mp hslice
    refine ⟨⟨before, ⟨between ++ after, ?_⟩, hstart⟩, ⟨before ++ between, ⟨after, hchars.symm⟩,
      hstop⟩, ?_⟩
    · rw [hchars, List.append_assoc]
    · rw [← hstart, ← hstop, byteLength_append]
      exact Nat.le_add_right _ _
  · rintro ⟨⟨before, hbefore, hstart⟩, ⟨whole, hwhole, hstop⟩, hle⟩
    have hprefix : before <+: whole := by
      rcases List.prefix_or_prefix_of_prefix hbefore hwhole with hshorter | ⟨extra, hextra⟩
      · exact hshorter
      · have hnone : byteLength extra = 0 := by
          rw [← hstart, ← hstop, ← hextra, byteLength_append] at hle
          omega
        rw [byteLength_eq_zero_iff.mp hnone, List.append_nil] at hextra
        exact hextra ▸ List.prefix_rfl
    obtain ⟨between, rfl⟩ := hprefix
    obtain ⟨after, hchars⟩ := hwhole
    exact ⟨between, slice?_eq_some_iff.mpr ⟨before, after, hchars.symm, hstart, hstop⟩⟩

namespace Cursor

variable {cursor later : Cursor} {before : List Char}

theorem HasRead.itemsFrom (h : cursor.HasRead before) :
    cursor.source.itemsFrom cursor.offset = indexed cursor.offset cursor.rest := by
  have hbefore : ∀ item ∈ indexed 0 before, decide (cursor.offset ≤ item.1) = false := by
    intro item hitem
    have hbounds := le_of_mem_indexed hitem
    rw [decide_eq_false_iff_not, h.offset]
    omega
  have hrest : ∀ item ∈ indexed (0 + byteLength before) cursor.rest,
      decide (cursor.offset ≤ item.1) = true := by
    intro item hitem
    have hbounds := le_of_mem_indexed hitem
    rw [decide_eq_true_iff, h.offset]
    omega
  have hnone : ∀ item ∈ ([] : List (Nat × Char)), decide (cursor.offset ≤ item.1) = false := nofun
  have hfilter := filter_between hbefore hrest hnone
  rw [List.append_nil, ← indexed_append, ← h.chars] at hfilter
  rw [Source.itemsFrom, hfilter, Nat.zero_add, h.offset]

theorem HasRead.isBoundary (h : cursor.HasRead before) :
    cursor.source.IsBoundary cursor.offset :=
  ⟨before, ⟨cursor.rest, h.chars.symm⟩, h.offset.symm⟩

theorem HasRead.offset_add_byteLength_rest (h : cursor.HasRead before) :
    cursor.offset + byteLength cursor.rest = cursor.source.size := by
  rw [h.offset, ← byteLength_append, ← h.chars, Source.size]

/-- Nothing is left exactly at the end of the source. -/
theorem HasRead.isAtEnd_iff (h : cursor.HasRead before) :
    cursor.isAtEnd = true ↔ cursor.offset = cursor.source.size := by
  have hsize := h.offset_add_byteLength_rest
  have hnone : cursor.isAtEnd = true ↔ byteLength cursor.rest = 0 := by
    rw [isAtEnd, List.isEmpty_iff, byteLength_eq_zero_iff]
  rw [hnone]
  omega

theorem Reads.offset_le (h : cursor.Reads later) : cursor.offset ≤ later.offset := by
  induction h with
  | refl cursor => exact Nat.le_refl _
  | next hnext _ ih =>
    unfold Cursor.next? at hnext
    split at hnext
    · cases hnext
    · cases hnext
      exact Nat.le_trans (Nat.le_add_right _ _) ih

theorem reads_take (cursor : Cursor) (count : Nat) : cursor.Reads (cursor.take count).2 := by
  induction count generalizing cursor with
  | zero => exact .refl cursor
  | succ count ih =>
    rw [take]
    split
    · exact .refl cursor
    · next item after hnext => exact .next hnext (ih after)

end Cursor

namespace Reader

def after (reader : Reader) (actions : List Action) : Reader :=
  actions.foldl (fun reader action => (reader.perform action).2) reader

theorem after_append (reader : Reader) (first second : List Action) :
    reader.after (first ++ second) = (reader.after first).after second :=
  List.foldl_append

/-- Each action finds the reader as the actions before it left it. -/
theorem getElem?_performAll (reader : Reader) (actions : List Action) (index : Nat) :
    (reader.performAll actions)[index]? =
      actions[index]?.map fun action =>
        (((reader.after (actions.take index)).perform action).1,
          (reader.after (actions.take (index + 1))).cursor.offset) := by
  induction actions generalizing reader index with
  | nil => rfl
  | cons action actions ih =>
    cases index with
    | zero => rfl
    | succ index =>
      rw [performAll, List.getElem?_cons_succ, List.getElem?_cons_succ, ih, List.take_succ_cons,
        List.take_succ_cons]
      rfl

/-! ### Where a reader stands -/

/-- The cursor of a reader and all that it has saved have come from the start of the source by
reading. -/
structure IsWithin (source : Source) (reader : Reader) : Prop where
  cursor : source.cursor.Reads reader.cursor
  saved : ∀ cursor ∈ reader.saved, source.cursor.Reads cursor

/-- Every action but a restore only reads. -/
theorem reads_perform {action : Action} (h : action ≠ .restore) (reader : Reader) :
    reader.cursor.Reads (reader.perform action).2.cursor := by
  cases action with
  | next =>
    rw [perform]
    split
    · exact .refl _
    · next hnext => exact .next hnext (.refl _)
  | eatWhile condition => exact reader.cursor.reads_eatWhile condition
  | take count => exact reader.cursor.reads_take count
  | lex configuration => exact reader.cursor.reads_lex configuration Handler.store #[]
  | restore => exact absurd rfl h
  | _ => exact .refl _

/-- Only saving and restoring touch what is saved. -/
theorem saved_perform {action : Action} (hsave : action ≠ .save) (hrestore : action ≠ .restore)
    (reader : Reader) : (reader.perform action).2.saved = reader.saved := by
  cases action with
  | next =>
    rw [perform]
    split <;> rfl
  | save => exact absurd rfl hsave
  | restore => exact absurd rfl hrestore
  | _ => rfl

theorem perform_restore_of_nil {reader : Reader} (h : reader.saved = []) :
    reader.perform .restore = (.truth false, reader) := by
  rw [perform, h]

theorem perform_restore_of_cons {reader : Reader} {cursor : Cursor} {saved : List Cursor}
    (h : reader.saved = cursor :: saved) :
    reader.perform .restore = (.truth true, { cursor, saved }) := by
  rw [perform, h]

theorem IsWithin.perform {source : Source} {reader : Reader} (h : reader.IsWithin source)
    (action : Action) : (reader.perform action).2.IsWithin source := by
  by_cases hrestore : action = .restore
  · subst hrestore
    cases hsaved : reader.saved with
    | nil => rwa [perform_restore_of_nil hsaved]
    | cons cursor saved =>
      have hwithin := h.saved
      rw [hsaved] at hwithin
      obtain ⟨hcursor, hrest⟩ := List.forall_mem_cons.mp hwithin
      rw [perform_restore_of_cons hsaved]
      exact ⟨hcursor, hrest⟩
  · refine ⟨h.cursor.trans (reads_perform hrestore reader), ?_⟩
    by_cases hsave : action = .save
    · subst hsave
      exact List.forall_mem_cons.mpr ⟨h.cursor, h.saved⟩
    · rw [saved_perform hsave hrestore]
      exact h.saved

theorem IsWithin.after {source : Source} {reader : Reader} (h : reader.IsWithin source)
    (actions : List Action) : (reader.after actions).IsWithin source := by
  induction actions generalizing reader with
  | nil => exact h
  | cons action actions ih => exact ih (h.perform action)

/-- Whatever was asked of a reader, it stands in its source. -/
theorem isWithin_after (source : Source) (actions : List Action) :
    ((ofSource source).after actions).IsWithin source :=
  IsWithin.after ⟨.refl _, fun _ hcursor => absurd hcursor List.not_mem_nil⟩ actions

/-! ### Saving and restoring -/

/-- Actions of which every restore undoes a save among them, and that restore all they save. -/
inductive IsBalanced : List Action → Prop
  | nil : IsBalanced []
  | snoc {actions : List Action} {action : Action} :
      IsBalanced actions → action ≠ .save → action ≠ .restore → IsBalanced (actions ++ [action])
  | nest {actions inner : List Action} :
      IsBalanced actions → IsBalanced inner →
        IsBalanced (actions ++ .save :: (inner ++ [.restore]))

/-- Where nothing is saved for good in between, a restore undoes the save in front. -/
theorem perform_restore_after_save {between : List Action}
    (h : ∀ reader : Reader, (reader.after between).saved = reader.saved) (reader : Reader) :
    (reader.after (.save :: between)).perform .restore = (.truth true, reader) := by
  have hsaved : (reader.after (.save :: between)).saved = reader.cursor :: reader.saved := h _
  exact perform_restore_of_cons hsaved

theorem after_save_restore {between : List Action}
    (h : ∀ reader : Reader, (reader.after between).saved = reader.saved) (reader : Reader) :
    reader.after (.save :: (between ++ [.restore])) = reader := by
  rw [← List.cons_append, after_append]
  exact congrArg Prod.snd (perform_restore_after_save h reader)

theorem IsBalanced.saved_after {actions : List Action} (h : IsBalanced actions)
    (reader : Reader) : (reader.after actions).saved = reader.saved := by
  induction h generalizing reader with
  | nil => rfl
  | snoc _ hsave hrestore ih =>
    rw [after_append]
    exact (saved_perform hsave hrestore _).trans (ih reader)
  | nest _ _ ih ihInner =>
    rw [after_append, after_save_restore ihInner]
    exact ih reader

/-- Whatever is saved was saved by an action that no restore has undone since. -/
theorem exists_save_of_saved_ne_nil (source : Source) (actions : List Action)
    (h : ((ofSource source).after actions).saved ≠ []) :
    ∃ earlier between, actions = earlier ++ .save :: between ∧ IsBalanced between := by
  rcases List.eq_nil_or_concat' actions with hnil | ⟨init, last, hactions⟩
  · rw [hnil] at h
    exact absurd rfl h
  · have hinit : init.length < actions.length := by simp [hactions]
    rw [hactions, after_append] at h
    by_cases hsave : last = .save
    · exact ⟨init, [], by rw [hactions, hsave], .nil⟩
    · by_cases hrestore : last = .restore
      · subst hrestore
        have hopen : ((ofSource source).after init).saved ≠ [] := by
          intro hnil
          have hnone := congrArg (fun outcome => outcome.2.saved) (perform_restore_of_nil hnil)
          exact h (hnone.trans hnil)
        obtain ⟨earlier, between, hsplit, hbetween⟩ := exists_save_of_saved_ne_nil source init hopen
        -- The restore undoes the last save, so what is still saved is what was before that.
        have hundone : ((ofSource source).after init).after [.restore] =
            (ofSource source).after earlier := by
          rw [← after_append, hsplit, List.append_assoc, List.cons_append, after_append,
            after_save_restore hbetween.saved_after]
        have hearlier : earlier.length < init.length := by
          rw [hsplit, List.length_append, List.length_cons]
          omega
        rw [hundone] at h
        obtain ⟨first, inner, hfirst, hinner⟩ := exists_save_of_saved_ne_nil source earlier h
        refine ⟨first, inner ++ .save :: (between ++ [.restore]), ?_, .nest hinner hbetween⟩
        rw [hactions, hsplit, hfirst]
        simp
      · have hopen : ((ofSource source).after init).saved ≠ [] :=
          saved_perform hsave hrestore _ ▸ h
        obtain ⟨earlier, between, hsplit, hbetween⟩ := exists_save_of_saved_ne_nil source init hopen
        refine ⟨earlier, between ++ [last], ?_, .snoc hbetween hsave hrestore⟩
        rw [hactions, hsplit, List.append_assoc, List.cons_append]
termination_by actions.length

/-! ### What a reader answers -/

/-- Asking for the next character over and over gives the characters still to come with their
offsets, and nothing behind the last of them. -/
theorem next_after_replicate (reader : Reader) (count : Nat) :
    ((reader.after (List.replicate count .next)).perform .next).1 =
      .item (indexed reader.cursor.offset reader.cursor.rest)[count]? := by
  induction count generalizing reader with
  | zero =>
    cases hrest : reader.cursor.rest with
    | nil => simp [after, perform, Cursor.next?, hrest, indexed]
    | cons c rest => simp [after, perform, Cursor.next?, hrest, indexed]
  | succ count ih =>
    have hafter : reader.after (List.replicate (count + 1) .next) =
        (reader.perform .next).2.after (List.replicate count .next) := rfl
    rw [hafter, ih]
    cases hrest : reader.cursor.rest with
    | nil => simp [perform, Cursor.next?, hrest, indexed]
    | cons c rest => simp [perform, Cursor.next?, hrest, indexed, Cursor.past]

structure IsSound (source : Source) (reader : Reader) : Prop where
  /-- It stands between two characters of its source or at an end. -/
  boundary : source.IsBoundary reader.cursor.offset
  le_size : reader.cursor.offset ≤ source.size
  /-- Only a restore can take it back. -/
  advances : ∀ action : Action, action ≠ .restore →
    reader.cursor.offset ≤ (reader.perform action).2.cursor.offset
  /-- The characters still to come are those of the source from the offset on. -/
  next : ∀ count : Nat, ((reader.after (List.replicate count .next)).perform .next).1 =
    .item (source.itemsFrom reader.cursor.offset)[count]?
  /-- What is eaten is the longest run that satisfies the condition. -/
  eatWhile : ∀ condition : Char → Bool, ∃ remaining eaten,
    slice? source.chars reader.cursor.offset source.size = some remaining ∧
    slice? source.chars reader.cursor.offset
      (reader.perform (.eatWhile condition)).2.cursor.offset = some eaten ∧
    (eaten <+: remaining ∧ ∀ c ∈ eaten, condition c = true) ∧
    ∀ run, (run <+: remaining ∧ ∀ c ∈ run, condition c = true) → run <+: eaten
  atEnd : reader.cursor.isAtEnd = true ↔ reader.cursor.peek? = none
  atEnd_iff : reader.cursor.isAtEnd = true ↔ source.size ≤ reader.cursor.offset
  /-- There is a span exactly from a place between two characters that is not behind. -/
  spanFrom : ∀ start : Nat, (reader.cursor.spanFrom? start).isSome ↔
    source.IsBoundary start ∧ start ≤ reader.cursor.offset
  charsIn : ∀ (start : Nat) (span : Span), reader.cursor.spanFrom? start = some span →
    span = ⟨start, reader.cursor.offset⟩ ∧
    slice? source.chars start reader.cursor.offset = some (source.charsIn span)

/-- A reader within its source is sound. -/
theorem IsWithin.isSound {source : Source} {reader : Reader} (h : reader.IsWithin source) :
    reader.IsSound source := by
  obtain ⟨hfrom, before, hread⟩ := source.hasRead_cursor.reads h.cursor
  have hsource : reader.cursor.source = source := hfrom
  rw [List.nil_append] at hread
  have hboundary := hread.isBoundary
  have hitems := hread.itemsFrom
  have hend := hread.isAtEnd_iff
  have hslice := hread.slice?
  rw [hsource] at hboundary hitems hend hslice
  refine ⟨hboundary, hboundary.le_size, ?_, ?_, ?_, ?_, ?_, ?_, ?_⟩
  · intro action hrestore
    exact (reads_perform hrestore reader).offset_le
  · intro count
    rw [next_after_replicate, hitems]
  · intro condition
    refine ⟨_, reader.cursor.rest.takeWhile condition, hslice, ?_,
      ⟨List.takeWhile_prefix condition, fun c hc => List.mem_takeWhile_imp hc⟩, ?_⟩
    · have hchars := hread.chars
      rw [← List.takeWhile_append_dropWhile (p := condition) (l := reader.cursor.rest)] at hchars
      have heaten := Source.slice?_of_append hchars
      rwa [hsource, ← hread.offset] at heaten
    · rintro run ⟨⟨behind, hrun⟩, hall⟩
      rw [← hrun, List.takeWhile_append_of_pos hall]
      exact List.prefix_append _ _
  · rw [Cursor.isAtEnd, Cursor.peek?, List.isEmpty_iff, List.head?_eq_none_iff]
  · rw [hend]
    have hle := hboundary.le_size
    omega
  · intro start
    rw [Cursor.spanFrom?, hsource, Source.isSome_span?_iff]
    exact ⟨fun hspan => ⟨hspan.1, hspan.2.2⟩, fun hspan => ⟨hspan.1, hboundary, hspan.2⟩⟩
  · intro start span hspan
    rw [Cursor.spanFrom?, hsource, Source.span?] at hspan
    obtain ⟨between, hbetween, rfl⟩ := Option.map_eq_some_iff.mp hspan
    rw [Source.charsIn, hbetween]
    exact ⟨rfl, rfl⟩

/-- A reader never loses its place. After any actions it stands between two characters of its
source. Only a restore can take it back, and does so to where the reader was before the save that
is the last one still open, or not at all if none is open. What it reads next, what it eats,
whether it is at the end and which spans it makes is determined by its source and its offset. -/
theorem perform_keeps_place (source : Source) (actions : List Action) :
    (∀ index : Nat, ((ofSource source).performAll actions)[index]? =
      actions[index]?.map fun action =>
        ((((ofSource source).after (actions.take index)).perform action).1,
          ((ofSource source).after (actions.take (index + 1))).cursor.offset)) ∧
    ((ofSource source).after actions).IsSound source ∧
    (∀ earlier between, actions = earlier ++ .save :: between → IsBalanced between →
      ((ofSource source).after actions).perform .restore =
        (.truth true, (ofSource source).after earlier)) ∧
    ((¬ ∃ earlier between, actions = earlier ++ .save :: between ∧ IsBalanced between) →
      ((ofSource source).after actions).perform .restore =
        (.truth false, (ofSource source).after actions)) := by
  refine ⟨getElem?_performAll _ actions, (isWithin_after source actions).isSound, ?_, ?_⟩
  · rintro earlier between rfl hbetween
    rw [after_append]
    exact perform_restore_after_save hbetween.saved_after _
  · intro hnone
    apply perform_restore_of_nil
    by_contra hsaved
    exact hnone (exists_save_of_saved_ne_nil source actions hsaved)

end Reader

end TokenScan
