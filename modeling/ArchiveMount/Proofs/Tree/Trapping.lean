/-
# `ArchiveMount.Proofs.Tree.Trapping` — checked work over stores that may answer anything

A store may state one size and send an end of another length, and a tree may hold positions
that no object has.  On the way from such numbers to the next range or slice a sum of words
overflows, a difference falls below zero, or a slice leaves what it is a slice of: there the
checked steps trap, and the plain ones go on with numbers of any size.

`Attempt.Tracks x y` says that this is all the difference: from every state the checked work
`x` traps, or does what `y` does.  Over any store, indexing and opening trap before they file
anything, or do what `build` and `openPath` do (`buildChecked_cases`,
`openPathChecked_cases`); so a statement about `build` or `openPath` over any store is one
about the checked work, up to traps that leave the cache as it was.  An end that is longer
than the object is said to be always traps (`run_buildChecked_of_overlong`).
-/
import ArchiveMount.Proofs.Tree.Checked
import ArchiveMount.Proofs.Tree.Search
import ArchiveMount.Proofs.Tree.Verified

namespace ArchiveMount

/-! ## Work that traps or does the same -/

namespace Attempt

variable {σ ε ε' α β : Type}

/-- From every state the work traps, or does what the unchecked work does. -/
def Tracks (x : Attempt σ (Stop ε) α) (y : Attempt σ ε α) : Prop :=
  ∀ s, (∃ t, (x.run s).1 = .error (.trap t)) ∨ x.run s = y.reporting.run s

variable {x : Attempt σ (Stop ε) α} {y : Attempt σ ε α}

theorem Tracks.reporting (y : Attempt σ ε α) : Tracks y.reporting y := fun _ => .inr rfl

theorem Tracks.pure (a : α) : Tracks (Pure.pure a : Attempt σ (Stop ε) α) (Pure.pure a) :=
  fun _ => .inr rfl

theorem Tracks.fail (e : ε) : Tracks (Attempt.fail (.error e) : Attempt σ (Stop ε) α) (.fail e) :=
  fun _ => .inr rfl

theorem Tracks.bind {f : α → Attempt σ (Stop ε) β} {g : α → Attempt σ ε β} (h : Tracks x y)
    (hf : ∀ a, Tracks (f a) (g a)) : Tracks (x >>= f) (y >>= g) := by
  intro s
  rw [reporting_bind, run_bind, run_bind]
  rcases h s with ⟨t, ht⟩ | heq
  · rw [ht]
    exact .inl ⟨t, rfl⟩
  · rw [heq]
    cases (y.reporting.run s).1 with
    | ok a => exact hf a _
    | error e => exact .inr rfl

/-- Work on words traps, or hands on what it comes to. -/
theorem Tracks.trapping_bind {r : Except Trap β} {f : β → Attempt σ (Stop ε) α}
    (hf : ∀ b, r = .ok b → Tracks (f b) y) : Tracks (trapping r >>= f) y := by
  intro s
  cases r with
  | error t => exact .inl ⟨t, rfl⟩
  | ok b => exact hf b rfl s

/-- Work on words alone. -/
theorem Tracks.trapping {r : Except Trap α} {a : α} (h : ∀ b, r = .ok b → b = a) :
    Tracks (Attempt.trapping r : Attempt σ (Stop ε) α) (Pure.pure a) := by
  intro s
  cases r with
  | error t => exact .inl ⟨t, rfl⟩
  | ok b =>
      obtain rfl := h b rfl
      exact .inr rfl

/-- What succeeds has done what the unchecked work does. -/
theorem Tracks.run_eq_of_ok {s s' : σ} {a : α} (h : Tracks x y) (hx : x.run s = (.ok a, s')) :
    y.run s = (.ok a, s') := by
  rcases h s with ⟨t, ht⟩ | heq
  · rw [hx] at ht
    cases ht
  · rw [hx, run_reporting] at heq
    obtain ⟨hok, hstate⟩ := Prod.mk.inj heq
    exact Prod.ext (mapError_eq_ok_iff.1 hok.symm) hstate.symm

end Attempt

/-- Nothing is filed by those who trap. -/
theorem Cache.fill_trap_cases {σ ε : Type} {x : Attempt σ (Stop ε) Bytes} {y : Attempt σ ε Bytes}
    (h : Attempt.Tracks x y) (k : CacheKey) (s : σ) (c : Cache) :
    (∃ t s', (fill k x).run (s, c) = (.error (.trap t), (s', c))) ∨
      (fill k x).run (s, c) = (fill k y).reporting.run (s, c) := by
  rw [← fill_reporting]
  cases hc : c.get? k with
  | some data =>
      rw [run_fill_of_some hc, run_fill_of_some hc]
      exact .inr rfl
  | none =>
      rcases h s with ⟨t, ht⟩ | heq
      · exact .inl ⟨t, (x.run s).2, run_fill_of_error hc (Prod.ext ht rfl)⟩
      · exact .inr (run_fill_congr heq k c)

namespace Tree

variable {σ : Type} {store : Store σ} {l : Locator} {s s' s₁ : σ} {c : Cache} {size : Nat}
  {r : EndRecord}

/-! ## The survey -/

theorem tracks_zip64Record (store : Store σ) (l : Locator) (size : Nat) (tail : Bytes)
    (offset : Nat) :
    Attempt.Tracks (zip64RecordChecked store l size tail (size - tail.length) offset)
      (zip64Record store l size tail offset) := by
  simp only [zip64RecordChecked, zip64Record]
  split_ifs with hin
  · refine .trapping_bind fun start hstart => .trapping_bind fun stop hstop => .trapping ?_
    intro raw hraw
    obtain ⟨-, rfl⟩ := Word.sub_eq_ok_iff.1 hstart
    obtain ⟨-, rfl⟩ := Word.add_eq_ok_iff.1 hstop
    obtain ⟨-, rfl⟩ := Bytes.between_eq_ok_iff.1 hraw
    rw [Nat.add_sub_cancel_left]
  · exact .reporting _

theorem tracks_scanTail (tail : Bytes) (tailOffset : Nat) :
    Attempt.Tracks
      ((Attempt.ofExcept (scanTailChecked tail tailOffset) :
        Attempt σ _ _).mapError (Stop.map TreeError.archive))
      ((Attempt.ofExcept (scanTail tail tailOffset)).mapError .archive) := by
  intro s
  rcases scanTailChecked_cases tail tailOffset with ⟨t, ht⟩ | heq
  · rw [ht]
    exact .inl ⟨t, rfl⟩
  · rw [ofExcept_reporting heq]
    exact .inr rfl

/-- Whatever the store answers, the search traps or is the plain one. -/
theorem tracks_searchTail (store : Store σ) (l : Locator) (size : Nat) (windows : List Nat) :
    Attempt.Tracks (searchTailChecked store l size windows) (searchTail store l size windows) := by
  induction windows with
  | nil => exact .fail _
  | cons window rest ih =>
      refine .bind (.reporting _) fun tail => .trapping_bind fun tailOffset hoff => ?_
      obtain ⟨-, rfl⟩ := Word.sub_eq_ok_iff.1 hoff
      refine .bind (tracks_scanTail _ _) fun scan => ?_
      cases scan with
      | directory r => exact .pure r
      | zip64 r offset =>
          exact .bind (tracks_zip64Record store l size tail offset) fun _ => .reporting _
      | notFound => exact ih

/-- The first steps of indexing: the size of the object and its end record. -/
def surveyChecked (store : Store σ) (l : Locator) :
    Attempt σ (Stop TreeError) (Nat × EndRecord) := do
  let size ← ((store.sizeOf l).mapError .object).reporting
  let r ← locateDirectoryChecked store l size
  return (size, r)

theorem tracks_survey (store : Store σ) (l : Locator) :
    Attempt.Tracks (surveyChecked store l) (survey store l) := by
  refine .bind (.reporting _) fun size => .bind ?_ fun r => .pure _
  simp only [locateDirectoryChecked, locateDirectory]
  split_ifs
  · exact .fail _
  · exact tracks_searchTail store l size _

/-- Whatever the store answers, the directory of an end record that is found ends within 64
bits. -/
theorem gives_searchTail (store : Store σ) (l : Locator) (size : Nat) (windows : List Nat) :
    Attempt.Gives (fun r : EndRecord => r.directoryOffset + r.directorySize ≤ maxWord)
      (searchTail store l size windows) := by
  induction windows with
  | nil => exact .fail _ _
  | cons window rest ih =>
      refine .bind fun tail => .bind_of ((Attempt.Gives.ofExcept fun _ h => h).mapError _) ?_
      intro scan hscan
      cases scan with
      | directory r =>
          rcases scanTail_eq_ok hscan with h | ⟨_, _, -, ⟨h, hstop⟩ | ⟨_, h, -⟩⟩
          · cases h
          · cases h
            exact .pure (Nat.le_trans hstop (Nat.min_le_right _ _))
          · cases h
      | zip64 classic offset =>
          refine .bind fun record => (Attempt.Gives.ofExcept fun r hr => ?_).mapError _
          obtain ⟨_, -, -, hstop⟩ := resolveZip64_eq_ok hr
          exact Nat.le_trans hstop (Nat.min_le_right _ _)
      | notFound => exact ih

theorem stop_le_of_survey (h : (survey store l).run s = (.ok (size, r), s')) :
    r.directoryOffset + r.directorySize ≤ maxWord := by
  obtain ⟨n, -, h⟩ := Attempt.fst_run_bind_eq_ok_iff.1 (congrArg Prod.fst h)
  obtain ⟨r', hr, h⟩ := Attempt.fst_run_bind_eq_ok_iff.1 h
  obtain ⟨-, rfl⟩ := Prod.mk.inj (Except.ok.inj h)
  simp only [locateDirectory] at hr
  split_ifs at hr
  · cases hr
  · exact gives_searchTail store l n _ _ _ hr

/-! ## Indexing -/

/-- Indexing is the survey, a look at the directory, and work on what was read. -/
theorem buildChecked_eq (store : Store σ) (l : Locator) :
    buildChecked store l = onStore (surveyChecked store l) >>= fun found =>
      readDirectoryChecked store l found.1 found.2 >>= fun directory =>
        (Attempt.ofExcept (indexed l found.1 found.2 directory)).reporting := by
  simp only [buildChecked, surveyChecked, onStore_bind, bind_assoc]
  rfl

/-- Work on a store leaves the cache alone. -/
theorem run_onStore {ε α : Type} {x : Attempt σ ε α} {out : Except ε α}
    (h : x.run s = (out, s')) (c : Cache) : (onStore x).run (s, c) = (out, (s', c)) := by
  have hrun : (onStore x).run (s, c) = ((x.run s).1, ((x.run s).2, c)) := rfl
  rw [hrun, h]

/-- If the survey fails or traps, nothing is filed. -/
theorem run_buildChecked_of_survey_error {e : Stop TreeError}
    (h : (surveyChecked store l).run s = (.error e, s')) (c : Cache) :
    (buildChecked store l).run (s, c) = (.error e, (s', c)) := by
  rw [buildChecked_eq, Attempt.bind_error (run_onStore h c)]

/-- Once the survey is done nothing traps any more. -/
theorem run_buildChecked_of_survey (h : (surveyChecked store l).run s = (.ok (size, r), s'))
    (c : Cache) :
    (buildChecked store l).run (s, c) = (readDirectory store l size r >>= fun directory =>
      Attempt.ofExcept (indexed l size r directory)).reporting.run (s', c) := by
  have hstop := stop_le_of_survey ((tracks_survey store l).run_eq_of_ok h)
  rw [buildChecked_eq, Attempt.bind_ok (run_onStore h c), readDirectoryChecked_eq size hstop,
    Attempt.reporting_bind]

/-- Whatever the store answers: indexing traps before it files anything, or does what `build`
does. -/
theorem buildChecked_cases (store : Store σ) (l : Locator) (s : σ) (c : Cache) :
    (∃ t s', (buildChecked store l).run (s, c) = (.error (.trap t), (s', c))) ∨
      (buildChecked store l).run (s, c) = (build store l).reporting.run (s, c) := by
  cases h : (surveyChecked store l).run s with
  | mk out s' =>
      cases out with
      | ok found =>
          obtain ⟨size, r⟩ := found
          have hplain := run_onStore ((tracks_survey store l).run_eq_of_ok h) c
          right
          rw [run_buildChecked_of_survey h, build_eq, Attempt.run_reporting, Attempt.run_reporting,
            Attempt.bind_ok hplain]
      | error e =>
          rw [run_buildChecked_of_survey_error h c]
          rcases tracks_survey store l s with ⟨t, ht⟩ | heq
          · rw [h] at ht
            obtain rfl := Except.error.inj ht
            exact .inl ⟨t, s', rfl⟩
          · have hplain : (onStore (survey store l)).reporting.run (s, c) = (.error e, (s', c)) :=
              run_onStore (heq.symm.trans h) c
            right
            rw [build_eq, Attempt.reporting_bind, Attempt.bind_error hplain]

/-- An answer to the request for a window that is longer than the object ends the search. -/
theorem run_searchTailChecked_of_overlong {window : Nat} {tail : Bytes}
    (htail : (store.readRange l (.suffix window)).run s = (.ok tail, s'))
    (hlong : size < tail.length) (rest : List Nat) :
    (searchTailChecked store l size (window :: rest)).run s =
      (.error (.trap .underflow), s') := by
  rw [searchTailChecked, Attempt.reporting_bind_ok htail, Word.sub_of_lt hlong]
  rfl

/-- If the end that is sent first is longer than the object is said to be, indexing traps, and
files nothing. -/
theorem run_buildChecked_of_overlong {tail : Bytes} (hsize : (store.sizeOf l).run s = (.ok size, s₁))
    (hmin : EndRecord.fixedLen ≤ size) (hmax : size ≤ maxWord)
    (htail : (store.readRange l (.suffix (min initialTailLen size))).run s₁ = (.ok tail, s'))
    (hlong : size < tail.length) (c : Cache) :
    (buildChecked store l).run (s, c) = (.error (.trap .underflow), (s', c)) := by
  have hfirst : ∃ rest, windows size = min initialTailLen size :: rest :=
    (doubling_windows hmax).eq_cons
  obtain ⟨rest, hwindows⟩ := hfirst
  have hlocate : (locateDirectoryChecked store l size).run s₁ =
      (.error (.trap .underflow), s') := by
    rw [locateDirectoryChecked, if_neg (Nat.not_lt.2 hmin), hwindows]
    exact run_searchTailChecked_of_overlong htail hlong rest
  refine run_buildChecked_of_survey_error ?_ c
  rw [surveyChecked, Attempt.reporting_bind_ok hsize, Attempt.bind_error hlocate]

/-- A store states 22 bytes and sends 23. -/
example : (buildChecked ⟨fun _ => pure 22, fun _ _ => pure ⟨[List.replicate 23 0], none⟩⟩
    ⟨"mem", none, [], none, none⟩).run ((), {}) = (.error (.trap .underflow), ((), {})) := by
  have hlong : 22 < (List.replicate 23 (0 : UInt8)).length := by decide
  exact run_buildChecked_of_overlong rfl (by decide) (by decide) rfl hlong {}

/-! ## Opening -/

variable {t : Tree} {e : TreeEntry}

theorem tracks_fetch (store : Store σ) (t : Tree) (e : TreeEntry) :
    Attempt.Tracks (t.fetchChecked store e) (t.fetch store e) := by
  rw [fetch_eq]
  refine .bind (.reporting _) fun raw => .bind (.reporting _) fun header => ?_
  refine .trapping_bind fun start hstart => ?_
  obtain rfl := LocalHeader.of_dataOffsetChecked hstart
  split_ifs
  · exact .fail _
  · rw [← Attempt.reporting_bind]
    exact .reporting _

/-- Whatever the store answers, and whatever stands in the tree: opening traps before it files
anything, or does what `openPath` does. -/
theorem openPathChecked_cases (store : Store σ) (t : Tree) (p : TreePath) (s : σ) (c : Cache) :
    (∃ x s', (t.openPathChecked store p).run (s, c) = (.error (.trap x), (s', c))) ∨
      (t.openPathChecked store p).run (s, c) = (t.openPath store p).reporting.run (s, c) := by
  by_cases htrap : ∃ e x s', t.entryAt p = .ok e ∧ checkReadable e = .ok () ∧
      (Cache.fill (t.cacheKey e) (t.fetchChecked store e)).run (s, c) =
        (.error (.trap x), (s', c))
  · obtain ⟨e, x, s', hentry, hread, hfill⟩ := htrap
    left
    rw [openPathChecked, hentry, Attempt.reporting_ofExcept_ok, pure_bind, hread,
      Attempt.reporting_ofExcept_ok, pure_bind]
    exact ⟨x, s', Attempt.bind_error hfill _⟩
  · refine .inr (run_openPathChecked_congr fun e hentry hread => ?_)
    rcases Cache.fill_trap_cases (tracks_fetch store t e) (t.cacheKey e) s c with ⟨x, s', hx⟩ | heq
    · exact absurd ⟨e, x, s', hentry, hread, hx⟩ htrap
    · exact heq

end Tree

end ArchiveMount
