/-
# `ArchiveMount.Proofs.Export.Reading` — a file by offsets, and by a cursor

Two protocols read an opened file.  One sends an offset with every request, and is told whether
the end was reached; the other keeps a position, which calls may move anywhere.

A client of the first kind goes on from where each reply ends.  One reply is what lies at its
offset, and says that the end is reached if and only if what was asked for reaches it
(`Nfs.run_read`); so the replies of a whole run are the file cut into pieces
(`Nfs.run_readOn`).  The handle stays known meanwhile, and the file is opened anew each time.

`Dav.Moves` says what a cursor does on one call, and every run of calls follows it
(`Dav.follows_answers`).  An open file that keeps its position in a machine word answers the
same: no read carries it past the greatest word, and a seek is checked
(`Dav.WordFile.answers_eq`).
-/
import ArchiveMount.Export.WebDav
import ArchiveMount.Proofs.Export.Lookup
import ArchiveMount.Proofs.Tree.Reader
import Mathlib.Algebra.Order.BigOperators.Group.List

namespace ArchiveMount

/-! ## By offsets -/

namespace Nfs

open HandleTable

variable {σ : Type} {store : Store σ} {t : Tree} {path : TreePath} {content : Bytes}
  {w w' : σ × Cache} {h : Handles} {handle : Nat}

/-- What a request is about stays known if it gives out no handles. -/
theorem Kept.known_unpin_pinning (hh : Kept t h) (hknown : h.find? handle = some path) :
    ((pinning h handle).unpin handle).find? handle = some path := by
  have hsize : (pinning h handle).size ≤ (pinning h handle).capacity := by
    have hle := size_le hh.sound hh.settled
    have hcapacity : 0 < h.capacity := Nat.lt_of_lt_of_le Nat.zero_lt_two hh.capacity
    rw [hh.pins, List.dedup_nil, List.length_nil, Nat.max_eq_left hcapacity] at hle
    rw [pinning, addPin_eq]
    show (h.promote handle).size ≤ h.capacity
    rwa [size_promote]
  simp only [find?, held_unpin_of_size_le hsize, root_unpin]
  exact (hh.ready_pinning hknown).known

/-- One reply: what lies at the offset, and whether what was asked for reaches the end. -/
theorem run_read (hknown : h.find? handle = some path)
    (hopen : (t.openPath store path).run w = (.ok content, w')) (hfits : content.length ≤ maxWord)
    (offset count : Nat) :
    (read store t handle offset count).run (w, h) =
      (.ok (readAt content offset count, decide (content.length ≤ offset + count)),
        (w', (pinning h handle).unpin handle)) := by
  have hzoom : (((t.openPath store path).zoom Prod.fst fun s w => (w, s.2)).mapError
      NfsError.ofTree : Request (σ × Cache) Bytes).run (w, pinning h handle) =
        (.ok content, (w', pinning h handle)) := by
    show ((((t.openPath store path).run w).1.mapError NfsError.ofTree,
      (((t.openPath store path).run w).2, pinning h handle)) : _ × _) = _
    rw [hopen]
    rfl
  have hbody := Attempt.bind_ok hzoom fun content =>
    (pure (readAt content offset count,
      decide (content.length ≤ addSat offset (readAt content offset count).length)) :
        Request (σ × Cache) (Bytes × Bool))
  have heof : decide (content.length ≤ addSat offset (readAt content offset count).length) =
      decide (content.length ≤ offset + count) :=
    decide_eq_decide.2 (length_le_addSat_iff hfits)
  rw [Attempt.run_pure, heof] at hbody
  unfold pinning at hbody
  rw [read, run_withPin hknown]
  exact congrArg (fun r => (r.1, (r.2.1, r.2.2.unpin handle))) hbody

/-- The replies to reads one after the other, each from where the one before ends. -/
def readOn (store : Store σ) (t : Tree) (handle : Nat) :
    (offset : Nat) → List Nat → Request (σ × Cache) (List (Bytes × Bool))
  | _, [] => pure []
  | offset, count :: counts => do
    let r ← read store t handle offset count
    let rest ← readOn store t handle (offset + r.1.length) counts
    return r :: rest

/-- Replies that give a file piece by piece, from an offset on. -/
structure Pieces (content : Bytes) (offset : Nat) (counts : List Nat)
    (rs : List (Bytes × Bool)) : Prop where
  length : rs.length = counts.length
  /-- As long as the end is not reported, nothing is missing. -/
  full : ∀ (i : Nat) (r : Bytes × Bool), rs[i]? = some r → r.2 = false →
    counts[i]? = some r.1.length
  /-- The end is reported by the read that reaches it, and by those that follow. -/
  eof : ∀ (i : Nat) (r : Bytes × Bool), rs[i]? = some r →
    (r.2 = true ↔ content.length ≤ offset + (counts.take (i + 1)).sum)
  data : rs.flatMap (·.1) = (content.drop offset).take counts.sum

theorem pieces_nil (content : Bytes) (offset : Nat) : Pieces content offset [] [] where
  length := rfl
  full := fun _ _ h => nomatch h
  eof := fun _ _ h => nomatch h
  data := rfl

/-- One reply before others. -/
theorem Pieces.cons {offset count : Nat} {counts : List Nat} {rs : List (Bytes × Bool)}
    (hrs : Pieces content (offset + (readAt content offset count).length) counts rs) :
    Pieces content offset (count :: counts)
      ((readAt content offset count, decide (content.length ≤ offset + count)) :: rs) where
  length := congrArg (· + 1) hrs.length
  full := by
    intro i r hr heof
    cases i with
    | zero =>
        obtain rfl := Option.some.inj hr
        have hshort := of_decide_eq_false heof
        have hlen : (readAt content offset count).length = count := by
          rw [length_readAt]
          omega
        exact congrArg some hlen.symm
    | succ i => exact hrs.full i r hr heof
  eof := by
    intro i r hr
    rw [List.take_succ_cons, List.sum_cons]
    cases i with
    | zero =>
        obtain rfl := Option.some.inj hr
        rw [List.take_zero, List.sum_nil, decide_eq_true_iff]
        rfl
    | succ i =>
        -- what the first read left out is not there
        rw [hrs.eof i r hr, length_readAt]
        omega
  data := by
    rw [List.flatMap_cons, hrs.data, List.sum_cons]
    exact readAt_append content offset count counts.sum

/-- Once the end is reported, the whole rest of the file has been given. -/
theorem Pieces.whole {offset : Nat} {counts : List Nat} {rs : List (Bytes × Bool)}
    (hrs : Pieces content offset counts rs) (heof : ∃ r ∈ rs, r.2 = true) :
    rs.flatMap (·.1) = content.drop offset := by
  obtain ⟨r, hr, hend⟩ := heof
  obtain ⟨i, hi⟩ := List.mem_iff_getElem?.1 hr
  have hreach := (hrs.eof i r hi).1 hend
  have hsum : (counts.take (i + 1)).sum ≤ counts.sum :=
    (List.take_sublist _ _).sum_le_sum fun _ _ => Nat.zero_le _
  rw [hrs.data, List.take_of_length_le]
  rw [List.length_drop]
  omega

/-- Reads that ask for something reach the end. -/
theorem Pieces.ends {offset : Nat} {counts : List Nat} {rs : List (Bytes × Bool)}
    (hrs : Pieces content offset counts rs) (hcounts : ∀ c ∈ counts, 1 ≤ c) (hne : counts ≠ [])
    (hmany : content.length ≤ offset + counts.length) : ∃ r, rs.getLast? = some r ∧ r.2 = true := by
  have hpos := List.length_pos_iff.2 hne
  have hlen := hrs.length
  obtain ⟨r, hr⟩ := Option.isSome_iff_exists.1
    (List.getLast?_isSome.2 (List.ne_nil_of_length_pos (hlen ▸ hpos)))
  refine ⟨r, hr, ?_⟩
  have hsum := List.length_le_sum_of_one_le counts hcounts
  rw [List.getLast?_eq_getElem?] at hr
  rw [hrs.eof _ r hr, List.take_of_length_le (by omega)]
  omega

/-- A client that reads on gets the file piece by piece, and may go on. -/
theorem run_readOn (hh : Kept t h) (hknown : h.find? handle = some path)
    (hopen : ((t.openPath store path).run w).1 = .ok content)
    (hfits : content.length ≤ maxWord) (offset : Nat) (counts : List Nat) :
    ∃ rs w' h', (readOn store t handle offset counts).run (w, h) = (.ok rs, (w', h')) ∧
      Pieces content offset counts rs ∧ Kept t h' ∧ h'.find? handle = some path ∧
      ((t.openPath store path).run w').1 = .ok content := by
  induction counts generalizing w h offset with
  | nil => exact ⟨[], w, h, rfl, pieces_nil content offset, hh, hknown, hopen⟩
  | cons count counts ih =>
      have hfirst := run_read hknown (Prod.ext hopen rfl) hfits offset count
      have hleads := (calling_read store t handle offset count).leads w h
      rw [hfirst] at hleads
      have hagain : ((t.openPath store path).run ((t.openPath store path).run w).2).1 =
          .ok content := by
        rw [Tree.run_openPath_again hopen]
      obtain ⟨rs, w', h', hrest, hpieces, hlater⟩ := ih (hh.leads hleads)
        (hh.known_unpin_pinning hknown) hagain (offset + (readAt content offset count).length)
      refine ⟨_, w', h', ?_, hpieces.cons, hlater⟩
      rw [readOn, Attempt.bind_ok hfirst, Attempt.bind_ok hrest]
      rfl

end Nfs

/-! ## By a cursor -/

namespace Dav

/-- What is asked of an open file. -/
inductive FileCall
  | read (count : Nat)
  | seek (whence : Whence) (n : Int)

/-- What an open file answers. -/
inductive FileAnswer
  | data (bytes : Bytes)
  | position (n : Nat)
  | refused (e : DavError)

/-- One call; a file that refuses it stays as it is. -/
def call (f : DavFile) : FileCall → FileAnswer × DavFile
  | .read count => (.data (read f count).1, (read f count).2)
  | .seek whence n =>
    match seek f whence n with
    | .ok f' => (.position f'.cursor.position, f')
    | .error e => (.refused e, f)

/-- The answers to calls one after the other. -/
def answers (f : DavFile) : List FileCall → List FileAnswer
  | [] => []
  | c :: calls => (call f c).1 :: answers (call f c).2 calls

/-- What a cursor over a content does on one call, from one position to the next. -/
inductive Moves (content : Bytes) : Nat → FileCall → FileAnswer → Nat → Prop
  | read (position count : Nat) :
    Moves content position (.read count) (.data ((content.drop position).take count))
      (position + min count (content.length - position))
  | seek {position target : Nat} {whence : Whence} {n : Int}
    (h : Cursor.target ⟨content, position⟩ whence n = target) (hfits : target ≤ maxWord) :
    Moves content position (.seek whence n) (.position target) target
  | refuse {position : Nat} {whence : Whence} {n : Int}
    (h : Cursor.target ⟨content, position⟩ whence n < 0 ∨
      maxWord < Cursor.target ⟨content, position⟩ whence n) :
    Moves content position (.seek whence n) (.refused .failure) position

/-- What it does on calls one after the other. -/
inductive Follows (content : Bytes) : Nat → List FileCall → List FileAnswer → Prop
  | nil (position : Nat) : Follows content position [] []
  | cons {position next : Nat} {c : FileCall} {a : FileAnswer} {calls : List FileCall}
    {as : List FileAnswer} (h : Moves content position c a next)
    (hrest : Follows content next calls as) : Follows content position (c :: calls) (a :: as)

variable {content : Bytes} {position next count : Nat} {a : FileAnswer}

/-- At the end and past it there is nothing to read, and the cursor stays. -/
theorem Moves.of_length_le (h : Moves content position (.read count) a next)
    (hpast : content.length ≤ position) : a = .data [] ∧ next = position := by
  cases h with
  | read =>
      rw [List.drop_eq_nil_of_le hpast, List.take_nil, Nat.sub_eq_zero_of_le hpast, Nat.min_zero]
      exact ⟨rfl, rfl⟩

/-- The position after a seek, if it is admitted. -/
theorem seek_cases (f : DavFile) (whence : Whence) (n : Int) :
    (∃ p : Nat, f.cursor.target whence n = p ∧ p ≤ maxWord ∧
        seek f whence n = .ok { f with cursor := { f.cursor with position := p } }) ∨
      (f.cursor.target whence n < 0 ∨ maxWord < f.cursor.target whence n) ∧
        seek f whence n = .error .failure := by
  by_cases hin : 0 ≤ f.cursor.target whence n ∧ f.cursor.target whence n < positionLimit
  · refine .inl ⟨(f.cursor.target whence n).toNat, (Int.toNat_of_nonneg hin.1).symm, ?_, ?_⟩
    · have hlt := hin.2
      rw [positionLimit] at hlt
      omega
    · rw [seek, Cursor.seek?, if_pos hin]
  · refine .inr ⟨?_, ?_⟩
    · rw [positionLimit] at hin
      omega
    · rw [seek, Cursor.seek?, if_neg hin]

/-- One call moves the cursor, and the content stays. -/
theorem moves_call (f : DavFile) (c : FileCall) :
    Moves f.cursor.content f.cursor.position c (call f c).1 (call f c).2.cursor.position ∧
      (call f c).2.cursor.content = f.cursor.content := by
  cases c with
  | read count =>
      refine ⟨?_, rfl⟩
      show Moves _ _ _ (.data (readAt f.cursor.content f.cursor.position count))
        (f.cursor.position + (readAt f.cursor.content f.cursor.position count).length)
      rw [length_readAt]
      exact .read f.cursor.position count
  | seek whence n =>
      rcases seek_cases f whence n with ⟨p, htarget, hfits, hseek⟩ | ⟨htarget, hseek⟩
      · simp only [call, hseek]
        exact ⟨.seek htarget hfits, trivial⟩
      · simp only [call, hseek]
        exact ⟨.refuse htarget, trivial⟩

/-- Calls one after the other are those on a cursor. -/
theorem follows_answers (f : DavFile) (calls : List FileCall) :
    Follows f.cursor.content f.cursor.position calls (answers f calls) := by
  induction calls generalizing f with
  | nil => exact .nil _
  | cons c calls ih =>
      obtain ⟨hmoves, hcontent⟩ := moves_call f c
      have hrest := ih (call f c).2
      rw [hcontent] at hrest
      exact .cons hmoves hrest

/-! ## A cursor in machine words -/

/-- An open file that keeps its position in a word. -/
structure WordFile where
  reader : EntryReader
  position : Nat

namespace WordFile

/-- Where a seek starts from. -/
def base (f : WordFile) : Whence → Nat
  | .start => 0
  | .current => f.position
  | .stop => f.reader.len

/-- One call. -/
def call (f : WordFile) : FileCall → Except Trap (FileAnswer × WordFile)
  | .read count => do
    let data ← f.reader.readChecked f.position count
    let position ← Word.add f.position data.length
    return (.data data, { f with position })
  | .seek whence n =>
    match Word.addSigned? (f.base whence) n with
    | some position => return (.position position, { f with position })
    | none => return (.refused .failure, f)

/-- The answers to calls one after the other. -/
def answers (f : WordFile) : List FileCall → Except Trap (List FileAnswer)
  | [] => return []
  | c :: calls => do
    let (a, f) ← f.call c
    let rest ← f.answers calls
    return a :: rest

variable {r : EntryReader} {c : FileCall}

theorem target_eq (r : EntryReader) (position : Nat) (whence : Whence) (n : Int) :
    Cursor.target ⟨r.file, position⟩ whence n = (base ⟨r, position⟩ whence : Int) + n := by
  cases whence with
  | start => exact (Int.zero_add n).symm
  | current => rfl
  | stop => rw [Cursor.target, base, r.length_file]

/-- What a cursor does on one call is done without a trap. -/
theorem call_eq (hfits : r.len ≤ maxWord) (hposition : position ≤ maxWord)
    (h : Moves r.file position c a next) :
    call ⟨r, position⟩ c = .ok (a, ⟨r, next⟩) ∧ next ≤ maxWord := by
  cases h with
  | read count =>
      have hnext : position + (readAt r.file position count).length ≤ maxWord := by
        rw [length_readAt, r.length_file]
        omega
      rw [← length_readAt]
      refine ⟨?_, hnext⟩
      show (r.readChecked position count >>= fun data => Word.add position data.length >>= _) = _
      rw [r.readChecked_eq hfits]
      show (Word.add position (readAt r.file position count).length >>= _) = _
      rw [Word.add_eq hnext]
      rfl
  | @seek _ whence n htarget hle =>
      rw [target_eq] at htarget
      have hsum : Word.addSigned? (base ⟨r, position⟩ whence) n = some next := by
        rw [Word.addSigned?, if_pos (by omega), htarget, Int.toNat_natCast]
      refine ⟨?_, hle⟩
      rw [call, hsum]
      rfl
  | @refuse whence n hout =>
      rw [target_eq] at hout
      have hsum : Word.addSigned? (base ⟨r, position⟩ whence) n = none := if_neg (by omega)
      refine ⟨?_, hposition⟩
      rw [call, hsum]
      rfl

/-- What a cursor does on calls one after the other is done without a trap. -/
theorem answers_eq (hfits : r.len ≤ maxWord) {calls : List FileCall} {as : List FileAnswer}
    (hposition : position ≤ maxWord) (h : Follows r.file position calls as) :
    answers ⟨r, position⟩ calls = .ok as := by
  induction calls generalizing position as with
  | nil =>
      cases h
      rfl
  | cons c calls ih =>
      cases h with
      | cons hmoves hrest =>
          obtain ⟨hcall, hnext⟩ := call_eq hfits hposition hmoves
          rw [answers, hcall]
          show (answers _ calls >>= fun rest => _) = _
          rw [ih hnext hrest]
          rfl

end WordFile

/-! ## Opening for a cursor -/

/-- A file that can be opened is opened for reading, with the cursor at its start. -/
theorem run_openFile {σ : Type} {store : Store σ} {t : Tree} {w w' : σ × Cache}
    {segments : List Bytes} {options : DavOpenOptions} (hoptions : options.changes = false)
    (hopen : (t.openPath store (treePath segments)).run w = (.ok content, w')) :
    ∃ e, t.entryAt (treePath segments) = .ok e ∧
      (openFile store t segments options).run w = (.ok ⟨e, { content }⟩, w') := by
  obtain ⟨e, he, hread, -⟩ := Tree.openPath_ok_cases (congrArg Prod.fst hopen)
  have hdir := Tree.isDir_of_checkReadable hread
  refine ⟨e, he, ?_⟩
  have hentry : ((Attempt.ofExcept (t.entryAt (treePath segments)) :
      Attempt (σ × Cache) _ _).mapError DavError.ofTree).run w = (.ok e, w) := by
    rw [he]
    rfl
  have hcontent : ((t.openPath store (treePath segments)).mapError DavError.ofTree).run w =
      (.ok content, w') := by
    rw [Attempt.run_mapError, hopen]
    rfl
  rw [openFile, hoptions]
  refine (Attempt.bind_ok hentry _).trans ?_
  rw [hdir]
  exact Attempt.bind_ok hcontent _

end Dav

/-! ## Files that could be opened -/

/-- Reading a file that could be opened is reading its content.  What a reader of its record
gives at an offset is what lies there.  Reads by handle, from the start and each from where the
one before ends, give the content piece by piece, report its end when they reach it and ever
after, and nothing is missing before.  Calls on an open file are those on a cursor that stands
at the start; none of them traps in machine words. -/
theorem Tree.reads_of_openPath {σ : Type} {store : Store σ} {t : Tree} {path : TreePath}
    {w : σ × Cache} {content : Bytes} (hopen : ((t.openPath store path).run w).1 = .ok content)
    (hfits : content.length ≤ maxWord) :
    ∃ e r, t.entryAt path = .ok e ∧ EntryReader.open? content e.size = .ok r ∧
      (∀ offset count, r.readChecked offset count = .ok ((content.drop offset).take count)) ∧
      (∀ (capacity : Nat) (h : Nfs.Handles) (handle : Nat), Nfs.Leads t (.new [] capacity) h →
        h.find? handle = some path →
        (∀ offset count, ((Nfs.read store t handle offset count).run (w, h)).1 =
          .ok ((content.drop offset).take count, decide (content.length ≤ offset + count))) ∧
        ∀ counts : List Nat, (∀ c ∈ counts, 1 ≤ c) → ∃ rs w' h',
          (Nfs.readOn store t handle 0 counts).run (w, h) = (.ok rs, (w', h')) ∧
          Nfs.Pieces content 0 counts rs ∧
          ((∃ r ∈ rs, r.2 = true) → rs.flatMap (·.1) = content) ∧
          (counts ≠ [] → content.length ≤ counts.length →
            ∃ r, rs.getLast? = some r ∧ r.2 = true) ∧
          ∀ offset count, content.length ≤ offset →
            ((Nfs.read store t handle offset count).run (w', h')).1 = .ok ([], true)) ∧
      ∀ (segments : List Bytes) (options : DavOpenOptions), Dav.treePath segments = path →
        options.changes = false → ∃ f w', (Dav.openFile store t segments options).run w =
          (.ok f, w') ∧
          (∀ calls, Dav.Follows content 0 calls (Dav.answers f calls) ∧
            Dav.WordFile.answers ⟨r, 0⟩ calls = .ok (Dav.answers f calls)) ∧
          ∀ position count a next, content.length ≤ position →
            Dav.Moves content position (.read count) a next → a = .data [] ∧ next = position := by
  obtain ⟨e, he, hread, hsize, hfill⟩ := Tree.openPath_ok_cases hopen
  have hlen : e.size ≤ maxWord := by
    rw [← hsize]
    exact hfits
  refine ⟨e, ⟨content, e.size, hsize⟩, he, dif_pos hsize, ?_, ?_, ?_⟩
  · exact EntryReader.readChecked_eq _ hlen
  · intro capacity h handle hleads hknown
    have hh : Nfs.Kept t h := (Nfs.kept_new t capacity).leads hleads
    refine ⟨?_, ?_⟩
    · intro offset count
      rw [Nfs.run_read hknown (Prod.ext hopen rfl) hfits]
      rfl
    · intro counts hcounts
      obtain ⟨rs, w', h', hrun, hpieces, -, hknown', hopen'⟩ :=
        Nfs.run_readOn hh hknown hopen hfits 0 counts
      refine ⟨rs, w', h', hrun, hpieces, hpieces.whole, ?_, ?_⟩
      · intro hne hmany
        exact hpieces.ends hcounts hne (by omega)
      · intro offset count hpast
        rw [Nfs.run_read hknown' (Prod.ext hopen' rfl) hfits, readAt_of_length_le hpast,
          decide_eq_true (by omega)]
  · rintro segments options rfl hoptions
    obtain ⟨e', -, hrun⟩ := Dav.run_openFile hoptions (Prod.ext hopen rfl)
    refine ⟨_, _, hrun, ?_, fun _ _ _ _ hpast hmoves => hmoves.of_length_le hpast⟩
    intro calls
    have hfollows := Dav.follows_answers ⟨e', { content }⟩ calls
    exact ⟨hfollows, Dav.WordFile.answers_eq hlen (Nat.zero_le _) hfollows⟩

/-! A file of two bytes, which are read one by one, and by a cursor that moves past its end. -/
namespace Tree.TwoBytes

def archive : StoredArchive where
  files := [{ name := "a", content := [104, 105] }]

def locator : Locator := ⟨"mem", some { host := "bucket" }, ["a.zip"], none, none⟩

/-- What indexing the archive gives, and leaves. -/
def outcome : Except TreeError Tree × Unit × Cache :=
  (build (.holding archive.bytes) locator).run ((), {})

def tree : Tree := outcome.1.toOption.getD (.ofRecords locator 0 [])

/-- The file has the handle 2. -/
def handles : Nfs.Handles := (HandleTable.new [] 0).handleFor ["a"] |>.2

theorem leads_handles : Nfs.Leads tree (.new [] 0) handles := by
  have hfile : (tree.find? ["a"]).isSome = true := by decide +kernel
  refine ⟨[.handleFor ["a"]], ?_, rfl, rfl⟩
  intro c hc
  rw [List.mem_singleton.1 hc]
  exact Option.isSome_iff_exists.1 hfile

def calls : List Dav.FileCall :=
  [.read 1, .seek .stop 5, .read 1, .seek .current (-9), .seek .start 1, .read 3]

theorem read_in_pieces :
    ((tree.openPath (.holding archive.bytes) ["a"]).run outcome.2).1 = .ok [104, 105] ∧
      (∃ rs w h, (Nfs.readOn (.holding archive.bytes) tree 2 0 [1, 1, 4]).run
          (outcome.2, handles) = (.ok rs, (w, h)) ∧
        Nfs.Pieces [104, 105] 0 [1, 1, 4] rs ∧ rs.flatMap (·.1) = [104, 105]) ∧
      ∃ f w, (Dav.openFile (.holding archive.bytes) tree [[97]] {}).run outcome.2 = (.ok f, w) ∧
        Dav.Follows [104, 105] 0 calls (Dav.answers f calls) := by
  have hopen : ((tree.openPath (.holding archive.bytes) ["a"]).run outcome.2).1 =
      .ok [104, 105] := by
    decide +kernel
  obtain ⟨e, r, -, -, -, hnfs, hdav⟩ := reads_of_openPath hopen (by decide)
  obtain ⟨-, hpieces⟩ := hnfs 0 handles 2 leads_handles (by decide)
  obtain ⟨rs, w, h, hrun, hrs, hwhole, hends, -⟩ := hpieces [1, 1, 4] (by decide)
  obtain ⟨last, hlast, heof⟩ := hends (by decide) (by decide)
  obtain ⟨f, w', hfile, hanswers, -⟩ := hdav [[97]] {} (by decide +kernel) rfl
  exact ⟨hopen, ⟨rs, w, h, hrun, hrs, hwhole ⟨last, List.mem_of_getLast? hlast, heof⟩⟩,
    f, w', hfile, (hanswers calls).1⟩

end Tree.TwoBytes

end ArchiveMount
