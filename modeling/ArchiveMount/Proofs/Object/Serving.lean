/-
# `ArchiveMount.Proofs.Object.Serving` — stores that serve an object faithfully

`Store.Serves store l data ok` says that the store answers for `l` with the bytes `data`,
in whatever chunks, from every state of a kind `ok` that it never leaves.  What can be
done with such a store can be done with `Store.holding data`, which has no state at all
(`Serves.agree_sizeOf`, `Serves.agree_readRange`).
-/
import ArchiveMount.Object.Memory
import ArchiveMount.Proofs.Attempt
import ArchiveMount.Proofs.Bytes

namespace ArchiveMount

/-! ## Parts of an object -/

namespace ByteRange

/-- The bytes of `data` that a range means. -/
def part (range : ByteRange) (data : Bytes) : Bytes :=
  Bytes.slice data (range.resolve data.length).start (range.resolve data.length).len

theorem part_suffix (len : Nat) (data : Bytes) :
    (ByteRange.suffix len).part data = data.drop (data.length - len) := by
  simp only [part, resolve, Span.len, Bytes.slice]
  rw [List.take_of_length_le (by simp)]

/-- A stretch that lies inside the object is delivered as it is. -/
theorem part_ofSpan {offset len : Nat} {data : Bytes} (hlen : 0 < len)
    (h : offset + len ≤ data.length) (hd : data.length ≤ maxWord) :
    (ofSpan offset len).part data = Bytes.slice data offset len := by
  have hmax : max len 1 = len := by omega
  have hlast : addSat offset (len - 1) = offset + (len - 1) := addSat_eq_add (by omega)
  have hstop : addSat (offset + (len - 1)) 1 = offset + len := by
    rw [addSat_eq_add (by omega)]
    omega
  simp only [part, ofSpan, resolve, Span.len, hmax, hlast, hstop]
  rw [Nat.min_eq_left (by omega), Nat.min_eq_left (by omega), Nat.add_sub_cancel_left]

end ByteRange

/-- A complete delivery of a range. -/
def Body.Delivers (b : Body) (range : ByteRange) (data : Bytes) : Prop :=
  b.failure = none ∧ b.chunks.flatten = range.part data

theorem Body.Delivers.read_eq {b : Body} {range : ByteRange} {data : Bytes}
    (h : b.Delivers range data) : b.read = .ok (range.part data) := by
  obtain ⟨hf, hc⟩ := h
  simp [Body.read, hf, hc]

namespace Store

variable {σ : Type}

/-- For `l` the store answers with `data` from every state that is `ok`, and it reaches
such states only. -/
structure Serves (store : Store σ) (l : Locator) (data : Bytes) (ok : σ → Prop) : Prop where
  size : ∀ s, ok s → ((store.sizeOf l).run s).1 = .ok data.length ∧ ok ((store.sizeOf l).run s).2
  body : ∀ range s, ok s →
    (∃ b, ((store.download l range).run s).1 = .ok b ∧ b.Delivers range data) ∧
      ok ((store.download l range).run s).2

/-- A store without state: every locator names the one object. -/
def holding (data : Bytes) : Store Unit where
  sizeOf _ := pure data.length
  download _ range := pure ⟨[range.part data], none⟩

theorem holding_serves (data : Bytes) (l : Locator) :
    (holding data).Serves l data fun _ => True where
  size _ _ := ⟨rfl, trivial⟩
  body range _ _ := ⟨⟨⟨[range.part data], none⟩, rfl, rfl, by simp⟩, trivial⟩

@[simp] theorem run_readRange_holding (data : Bytes) (l : Locator) (range : ByteRange) :
    ((holding data).readRange l range).run () = (.ok (range.part data), ()) := by
  simp only [readRange, holding, Attempt.run_bind, Attempt.run_pure, Attempt.run_liftM]
  simp [Body.read]

/-- A complete delivery is read as the part that a range means. -/
theorem run_readRange_of_delivers {store : Store σ} {l : Locator} {range : ByteRange} {s s' : σ}
    {b : Body} {data : Bytes} (h : (store.download l range).run s = (.ok b, s'))
    (hd : b.Delivers range data) :
    (store.readRange l range).run s = (.ok (range.part data), s') := by
  rw [readRange, Attempt.bind_ok h]
  exact Prod.ext hd.read_eq rfl

namespace Serves

variable {store : Store σ} {l : Locator} {data : Bytes} {ok : σ → Prop}

theorem run_download (h : store.Serves l data ok) {s : σ} (hs : ok s) (range : ByteRange) :
    ∃ b s', (store.download l range).run s = (.ok b, s') ∧ b.Delivers range data ∧ ok s' := by
  obtain ⟨⟨b, hb, hd⟩, hs'⟩ := h.body range s hs
  exact ⟨b, _, Prod.ext hb rfl, hd, hs'⟩

theorem run_readRange (h : store.Serves l data ok) {s : σ} (hs : ok s) (range : ByteRange) :
    ∃ s', (store.readRange l range).run s = (.ok (range.part data), s') ∧ ok s' := by
  obtain ⟨b, s', hb, hd, hs'⟩ := h.run_download hs range
  exact ⟨s', run_readRange_of_delivers hb hd, hs'⟩

theorem agree_sizeOf (h : store.Serves l data ok) :
    Attempt.Agree (fun s _ => ok s) (store.sizeOf l) ((holding data).sizeOf l) :=
  fun s _ hs => h.size s hs

theorem agree_readRange (h : store.Serves l data ok) (range : ByteRange) :
    Attempt.Agree (fun s _ => ok s) (store.readRange l range)
      ((holding data).readRange l range) := by
  intro s t hs
  obtain ⟨s', hr, hs'⟩ := h.run_readRange hs range
  rw [hr, run_readRange_holding]
  exact ⟨rfl, hs'⟩

theorem keeps_download (h : store.Serves l data ok) (range : ByteRange) :
    Attempt.Keeps ok (store.download l range) :=
  fun s hs => (h.body range s hs).2

theorem keeps_readRange (h : store.Serves l data ok) (range : ByteRange) :
    Attempt.Keeps ok (store.readRange l range) :=
  .bind (h.keeps_download range) fun _ => .ofExcept _

end Serves

end Store

/-! ## Objects in memory -/

namespace MemoryStore

/-- A download counts, and delivers what the store holds. -/
theorem run_download {m : MemoryStore} {l : Locator} {data : Bytes} (hf : m.failing = false)
    (ho : m.object l = .ok data) (range : ByteRange) :
    (store.download l range).run m =
      (.ok (serve data range), { m with downloads := m.downloads + 1 }) := by
  -- what the store holds does not depend on how often it was asked
  have ho' : ∀ n b, (⟨m.objects, n, b⟩ : MemoryStore).object l = .ok data := fun _ _ => ho
  simp only [store, Attempt.run_bind, Attempt.run_modify, Attempt.run_get, hf,
    Bool.false_eq_true, if_false, Attempt.run_liftM, ho', Attempt.run_pure]

/-- A store in memory serves what it holds, unless it has been told to fail. -/
theorem serves (l : Locator) (data : Bytes) :
    store.Serves l data fun m => m.failing = false ∧ m.object l = .ok data where
  size m hm := by
    have hr : (store.sizeOf l).run m = (.ok data.length, m) := by
      obtain ⟨-, ho⟩ := hm
      simp only [store, Attempt.run_bind, Attempt.run_get, Attempt.run_liftM, ho,
        Attempt.run_pure]
    rw [hr]
    exact ⟨rfl, hm⟩
  body range m hm := by
    obtain ⟨hf, ho⟩ := hm
    rw [run_download hf ho]
    exact ⟨⟨serve data range, rfl, rfl, flatten_chunksOf _ _⟩, hf, ho⟩

end MemoryStore

end ArchiveMount
