/-
The table of declarations and the open frames. Each binding of an open frame has an entry of the
table, which says what the binding says and how many frames were open. The numbers of the entries
grow from the outermost frame inwards, since declarations go into the innermost frame only, and with
each declaration in one frame. Frames close while the table stays, so an entry once made is there
after any further operations.
-/
import PixelJava.Proofs.Lowering.Restoration
import PixelJava.Proofs.Scope.Run
import Mathlib.Data.List.Pairwise

namespace PixelJava

open LowerM LowerState

namespace Scopes

/-! ## Entries of the table -/

/-- The table has an entry for the binding of `name`, made with `depth` frames open. -/
def Records (table : List Declared) (depth : Nat) (name : String) (b : Binding) : Prop :=
  ∃ span, table[b.decl]? = some ⟨name, b.javaName, b.type, span, depth⟩

theorem Records.lt_length {table : List Declared} {depth : Nat} {name : String} {b : Binding}
    (h : Records table depth name b) : b.decl < table.length := by
  obtain ⟨span, hentry⟩ := h
  exact (List.getElem?_eq_some_iff.1 hentry).1

theorem Records.append {table : List Declared} {depth : Nat} {name : String} {b : Binding}
    (h : Records table depth name b) (more : List Declared) :
    Records (table ++ more) depth name b := by
  have hlt := h.lt_length
  obtain ⟨span, hentry⟩ := h
  exact ⟨span, (List.getElem?_append_left hlt).trans hentry⟩

/-- The table has entries for all bindings of the frames, innermost frame first. -/
def Recorded (table : List Declared) : List Frame → Prop
  | [] => True
  | frame :: outer =>
    (∀ p ∈ frame, Records table (outer.length + 1) p.1 p.2) ∧ Recorded table outer

/-- Bindings stay recorded as the table grows. -/
theorem Recorded.append {table : List Declared} {frames : List Frame} (h : Recorded table frames)
    (more : List Declared) : Recorded (table ++ more) frames := by
  induction frames with
  | nil => trivial
  | cons frame outer ih => exact ⟨fun p hp => (h.1 p hp).append more, ih h.2⟩

theorem Recorded.tail {table : List Declared} {frames : List Frame} (h : Recorded table frames) :
    Recorded table frames.tail := by
  cases frames with
  | nil => trivial
  | cons frame outer => exact h.2

theorem Recorded.lt_length {table : List Declared} {frames : List Frame} (h : Recorded table frames) :
    ∀ p ∈ frames.flatten, p.2.decl < table.length := by
  induction frames with
  | nil => exact fun p hp => (by cases hp)
  | cons frame outer ih =>
    rw [List.flatten_cons, List.forall_mem_append]
    exact ⟨fun p hp => (h.1 p hp).lt_length, ih h.2⟩

/-- The frames counted from the outermost one: the `i`th has `i` frames around it. -/
theorem Recorded.getElem? {table : List Declared} {frames : List Frame} (h : Recorded table frames)
    {i : Nat} {frame : Frame} (hi : frames.reverse[i]? = some frame) :
    ∀ p ∈ frame, Records table (i + 1) p.1 p.2 := by
  induction frames with
  | nil => cases hi
  | cons inner outer ih =>
    rw [List.reverse_cons] at hi
    rcases Nat.lt_trichotomy i outer.length with hlt | rfl | hgt
    · rw [List.getElem?_append_left (by rwa [List.length_reverse])] at hi
      exact ih h.2 hi
    · rw [← List.length_reverse, List.getElem?_concat_length] at hi
      cases hi
      exact h.1
    · rw [List.getElem?_eq_none (by simpa using Nat.succ_le_of_lt hgt)] at hi
      cases hi

/-! ## The invariant -/

/-- The bindings of the open frames are those of the table, and later ones have greater numbers. -/
structure Coherent (s : Scopes) : Prop where
  recorded : Recorded s.declared s.frames
  descending : s.visible.Pairwise fun p q => q.2.decl < p.2.decl

theorem empty_coherent : Scopes.empty.Coherent :=
  ⟨trivial, .nil⟩

theorem enter_coherent {s : Scopes} (h : s.Coherent) : s.enter.Coherent :=
  ⟨⟨fun _ hp => (by cases hp), h.recorded⟩, h.descending⟩

theorem exit_coherent {s : Scopes} (h : s.Coherent) : s.exit.Coherent :=
  ⟨h.recorded.tail, h.descending.sublist (visible_exit s)⟩

/-- The new entry is the last one of the table, and its number is that of the new binding. -/
theorem records_add (s : Scopes) (name : String) (type : Ty) (span : Span) :
    Records (s.add name type span).2.declared s.opened.depth name (s.nextBinding name type) := by
  refine ⟨span, ?_⟩
  rw [declared_add]
  exact List.getElem?_concat_length

/-- A declaration records the binding that it makes. -/
theorem add_coherent {s : Scopes} (h : s.Coherent) (name : String) (type : Ty) (span : Span) :
    (s.add name type span).2.Coherent := by
  constructor
  · have hnew := records_add s name type span
    have hold : Recorded (s.add name type span).2.declared s.frames := by
      rw [declared_add]
      exact h.recorded.append _
    rw [frames_add]
    -- without an open frame the declaration opens the outermost one
    cases hframes : s.frames with
    | nil =>
      rw [show s.opened.depth = 1 by simp [opened, hframes, enter, depth]] at hnew
      exact ⟨fun p hp => by rwa [List.mem_singleton.1 hp], trivial⟩
    | cons frame outer =>
      rw [show s.opened.depth = outer.length + 1 by simp [opened, hframes, depth]] at hnew
      rw [hframes] at hold
      refine ⟨fun p hp => ?_, hold.2⟩
      rcases List.mem_cons.1 hp with rfl | hp
      · exact hnew
      · exact hold.1 p hp
  · rw [visible_add, List.pairwise_cons]
    exact ⟨h.recorded.lt_length, h.descending⟩

/-- Bindings of an outer frame have smaller numbers than those of a frame inside it. -/
theorem Coherent.decl_lt {s : Scopes} (h : s.Coherent) {i j : Nat} {outer inner : Frame}
    (hi : s.frames.reverse[i]? = some outer) (hj : s.frames.reverse[j]? = some inner) (hij : i < j) :
    ∀ p ∈ outer, ∀ q ∈ inner, p.2.decl < q.2.decl := by
  have hframes := List.pairwise_reverse.2 (List.pairwise_flatten.1 h.descending).2
  obtain ⟨hilt, rfl⟩ := List.getElem?_eq_some_iff.1 hi
  obtain ⟨hjlt, rfl⟩ := List.getElem?_eq_some_iff.1 hj
  intro p hp q hq
  exact List.pairwise_iff_getElem.1 hframes i j hilt hjlt hij q hq p hp

/-- Different bindings of one frame have different numbers. -/
theorem Coherent.decl_ne {s : Scopes} (h : s.Coherent) {frame : Frame} (hframe : frame ∈ s.frames)
    {p q : String × Binding} (hp : p ∈ frame) (hq : q ∈ frame) (hpq : p ≠ q) :
    p.2.decl ≠ q.2.decl := by
  have hdescending := (List.pairwise_flatten.1 h.descending).1 frame hframe
  have hdistinct : frame.Pairwise fun p q => p.2.decl ≠ q.2.decl :=
    hdescending.imp fun hlt => (Nat.ne_of_lt hlt).symm
  have : Std.Symm fun p q : String × Binding => p.2.decl ≠ q.2.decl := ⟨fun _ _ hne => hne.symm⟩
  exact hdistinct.forall hp hq hpq

/-! ## Runs -/

/-- The step of a session that carries out the operation. -/
def Op.step : Op → Step
  | .enter => .enter
  | .exit => .exit
  | .declare name type span => .declare name type span

end Scopes

open Scopes

namespace Session

/-- The session after an operation on its scopes, which may fail. -/
def carryOut (session : Session) (op : Op) : Session :=
  (session.step op.step).2

/-- The session after operations on its scopes, from the start on. -/
def after (options : Options) (ops : List Op) : Session :=
  ops.foldl carryOut (.start options)

theorem carryOut_coherent {session : Session} (h : session.scopes.Coherent) (op : Op) :
    (session.carryOut op).scopes.Coherent := by
  cases op with
  | enter => exact enter_coherent h
  | exit => exact exit_coherent h
  | declare name type span =>
    simp only [carryOut, Op.step, step, Step.run, scopes, outcome_bind]
    cases hs : Java.isSourceName name with
    | false =>
      rw [outcome_declare_error hs]
      exact h
    | true =>
      rw [outcome_declare_ok hs]
      exact add_coherent h name type span

theorem foldl_coherent {session : Session} (h : session.scopes.Coherent) (ops : List Op) :
    (ops.foldl carryOut session).scopes.Coherent := by
  induction ops generalizing session with
  | nil => exact h
  | cons op rest ih => exact ih (carryOut_coherent h op)

/-- Further operations only add to the table. -/
theorem declared_grows (session : Session) (ops : List Op) :
    session.scopes.declared <+: (ops.foldl carryOut session).scopes.declared := by
  induction ops generalizing session with
  | nil => exact List.prefix_refl _
  | cons op rest ih =>
    have hstep : session.scopes.declared <+: (session.carryOut op).scopes.declared :=
      (grows_run op.step session.state).declared
    exact hstep.trans (ih _)

/-- The table of a session is an extension of what it was at any time before. -/
theorem declared_take (options : Options) (ops : List Op) (n : Nat) :
    (after options (ops.take n)).scopes.declared <+: (after options ops).scopes.declared := by
  have hsplit : after options ops = (ops.drop n).foldl carryOut (after options (ops.take n)) := by
    rw [after, after, ← List.foldl_append, List.take_append_drop]
  rw [hsplit]
  exact declared_grows _ _

/-- A declaration that is refused leaves the session as it was. -/
theorem step_declare_error {session : Session} {name : String} {type : Ty} {span : Span}
    {fault : Fault} (h : (session.step (.declare name type span)).1 = .error fault) :
    (session.step (.declare name type span)).2 = session := by
  simp only [step, Step.run, outcome_bind] at h ⊢
  cases hs : Java.isSourceName name with
  | false => rw [outcome_declare_error hs, andThen_error]
  | true =>
    rw [outcome_declare_ok hs] at h
    cases h

end Session

/-- After every run of operations on the scopes, with the open frames counted from the outermost
one: a binding has an entry of the table with its name, its Java name and its type, and with the
number of frames that were open, which is that of the frames up to its own; the numbers of different
bindings differ, and they are smaller in an outer frame than in one inside it; the table after the
first operations of the run begins the table after all; and a declaration that is refused changes
nothing. -/
theorem Session.bindings_match_table (options : Options) (ops : List Op) :
    let session := Session.after options ops
    let frames := session.scopes.frames.reverse
    let table := session.scopes.declared
    (∀ (i : Nat) (frame : Frame) (name : String) (b : Binding), frames[i]? = some frame →
        frame.lookup name = some b → ∃ d, table[b.decl]? = some d ∧ d.sourceName = name ∧
          d.javaName = b.javaName ∧ d.type = b.type ∧ d.depth = i + 1) ∧
      (∀ (i j : Nat) (outer inner : Frame) (name name' : String) (b b' : Binding),
        frames[i]? = some outer → frames[j]? = some inner → outer.lookup name = some b →
          inner.lookup name' = some b' →
            (i < j → b.decl < b'.decl) ∧ ((i, name) ≠ (j, name') → b.decl ≠ b'.decl)) ∧
      (∀ n, (Session.after options (ops.take n)).scopes.declared <+: table) ∧
      ∀ name type span fault, (session.step (.declare name type span)).1 = .error fault →
        (session.step (.declare name type span)).2 = session := by
  intro session frames table
  have hc : session.scopes.Coherent :=
    @Session.foldl_coherent (.start options) empty_coherent ops
  have hmem {frame : Frame} {name : String} {b : Binding} (h : frame.lookup name = some b) :
      (name, b) ∈ frame := by
    obtain ⟨before, behind, rfl, -⟩ := List.lookup_eq_some_iff.1 h
    exact List.mem_append_right _ List.mem_cons_self
  refine ⟨?_, ?_, Session.declared_take options ops, fun _ _ _ _ => Session.step_declare_error⟩
  · intro i frame name b hframe hb
    obtain ⟨span, hentry⟩ := hc.recorded.getElem? hframe _ (hmem hb)
    exact ⟨_, hentry, rfl, rfl, rfl, rfl⟩
  · intro i j outer inner name name' b b' houter hinner hb hb'
    refine ⟨fun hij => hc.decl_lt houter hinner hij _ (hmem hb) _ (hmem hb'), fun hne => ?_⟩
    rcases Nat.lt_trichotomy i j with hij | rfl | hji
    · exact Nat.ne_of_lt (hc.decl_lt houter hinner hij _ (hmem hb) _ (hmem hb'))
    · -- two names of one frame
      cases houter.symm.trans hinner
      have hframe : outer ∈ session.scopes.frames := List.mem_reverse.1 (List.mem_of_getElem? houter)
      refine hc.decl_ne hframe (hmem hb) (hmem hb') fun he => hne ?_
      rw [(Prod.mk.inj he).1]
    · exact Nat.ne_of_gt (hc.decl_lt hinner houter hji _ (hmem hb') _ (hmem hb))

end PixelJava
