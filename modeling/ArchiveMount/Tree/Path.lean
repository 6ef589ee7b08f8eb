/-
# `ArchiveMount.Tree.Path` — paths in a mounted archive

A `TreePath` is the list of components below the root.  `ofText` reads any text as
one: slashes and backslashes both separate, empty and `.` components vanish, and `..`
takes the component before it away but never leaves the root.  `render` writes the
rooted form, and `normalize` is the one after the other.
-/
import ArchiveMount.Text.Pieces

namespace ArchiveMount

/-- The components of a path below the root, outermost first. -/
abbrev TreePath := List String

namespace TreePath

/-- Both slashes separate components. -/
def isSeparator (c : Char) : Bool := c = '/' || c = '\\'

/-- What stands between the separators of a text. -/
def split (s : String) : List String :=
  (Text.pieces isSeparator s.toList).map String.ofList

/-- Follow one component from where `stack` leads; the innermost component stands
first. -/
def step (stack : List String) (component : String) : List String :=
  if component = "" ∨ component = "." then stack
  else if component = ".." then stack.tail
  else component :: stack

/-- Read a text as a path. -/
def ofText (s : String) : TreePath := ((split s).foldl step []).reverse

/-- The rooted form: a slash before each component, or a lone one for the root. -/
def render (p : TreePath) : String :=
  if p.isEmpty then "/" else String.ofList (p.flatMap fun c => '/' :: c.toList)

/-- The rooted form of any text. -/
def normalize (s : String) : String := (ofText s).render

/-- The path one component shorter; the root is its own parent. -/
def parent (p : TreePath) : TreePath := p.dropLast

/-- The last component; empty for the root. -/
def name (p : TreePath) : String := p.getLastD ""

/-- Where a component leads from a path. -/
def enter (p : TreePath) (component : String) : TreePath := (step p.reverse component).reverse

/-- The order of a walk: a path comes before whatever lies below it, and paths that part
stand in the order of the components where they part. -/
def le : TreePath → TreePath → Bool
  | [], _ => true
  | _ :: _, [] => false
  | c :: p, d :: q => if c = d then le p q else decide (c < d)

/-- Whether some component of a text is `..`. -/
def climbs (s : String) : Bool := (split s).contains ".."

/-- What a component of a path may be. -/
def IsComponent (c : String) : Prop :=
  c ≠ "" ∧ c ≠ "." ∧ c ≠ ".." ∧ ∀ x ∈ c.toList, isSeparator x = false

/-- A path all of whose components are proper. -/
def Canonical (p : TreePath) : Prop := ∀ c ∈ p, IsComponent c

theorem isComponent_of_mem_step {stack : List String} {component c : String}
    (hs : ∀ d ∈ stack, IsComponent d) (hc : ∀ x ∈ component.toList, isSeparator x = false)
    (h : c ∈ step stack component) : IsComponent c := by
  unfold step at h
  split at h
  · exact hs c h
  · split at h
    · exact hs c (List.mem_of_mem_tail h)
    · rcases List.mem_cons.1 h with rfl | h
      · simp_all [IsComponent]
      · exact hs c h

theorem canonical_foldl_step {cs stack : List String} (hs : ∀ d ∈ stack, IsComponent d)
    (hc : ∀ c ∈ cs, ∀ x ∈ c.toList, isSeparator x = false) :
    ∀ d ∈ cs.foldl step stack, IsComponent d := by
  induction cs generalizing stack with
  | nil => exact hs
  | cons c cs ih =>
    refine ih (fun d hd => isComponent_of_mem_step hs (hc c (by simp)) hd) fun e he => ?_
    exact hc e (by simp [he])

/-- What is read from a text is canonical. -/
theorem canonical_ofText (s : String) : Canonical (ofText s) := by
  intro c hc
  have hn : ∀ d ∈ ([] : List String), IsComponent d := by simp
  refine canonical_foldl_step hn ?_ c (List.mem_reverse.1 hc)
  intro d hd x hx
  obtain ⟨p, hp, rfl⟩ := List.mem_map.1 hd
  exact Text.not_sep_of_mem_pieces hp x (by simpa using hx)

end TreePath

end ArchiveMount
