/-
Runs of scope operations. Beside the scopes, a run keeps a history of its own: the declarations made
in each open frame, all Java names handed out, and the names declared again while they were bound.
After every run the open declarations have distinct Java names, as long as no name has been declared
again 2^32 times. Java takes those names as they are, and a name stands for the latest open
declaration of it in the innermost frame that has one.
-/
import PixelJava.Proofs.Scope.Invariant

namespace PixelJava.Scopes

open Java

/-- An operation on scopes. -/
inductive Op where
  | enter
  | exit
  | declare (name : String) (type : Ty) (span : Span)

/-- A run so far. -/
structure History where
  scopes : Scopes
  /-- The declarations made in each open frame, innermost frame and latest declaration first. -/
  live : List (List (String × Binding))
  /-- The Java names handed out, oldest first. -/
  given : List String
  /-- The names declared while a live declaration had them, as often as that happened. -/
  redeclared : List String

namespace History

def empty : History :=
  ⟨.empty, [], [], []⟩

/-- Whether a live declaration has the name. -/
def isLive (h : History) (name : String) : Bool :=
  h.live.flatten.any (·.1 == name)

/-- The history with a further declaration, which was given `javaName` and led to `scopes`. -/
def record (h : History) (name javaName : String) (type : Ty) (scopes : Scopes) : History where
  scopes := scopes
  live := push (name, ⟨javaName, type, h.given.length⟩) h.live
  given := h.given ++ [javaName]
  redeclared := if h.isLive name then name :: h.redeclared else h.redeclared

/-- Carries out an operation. A declaration that is refused leaves everything as it is. -/
def step (h : History) : Op → History
  | .enter => { h with scopes := h.scopes.enter, live := [] :: h.live }
  | .exit => { h with scopes := h.scopes.exit, live := h.live.tail }
  | .declare name type span =>
    match h.scopes.declare name type span with
    | .error _ => h
    | .ok (javaName, scopes) => h.record name javaName type scopes

/-- The history of a run from the empty scopes. -/
def run (ops : List Op) : History :=
  ops.foldl step empty

/-- What the history of a run has to do with its scopes. -/
structure WF (h : History) : Prop where
  scopes : h.scopes.WF
  live : h.live = h.scopes.frames
  given : ∀ javaName ∈ h.given, isName javaName = true
  table : h.scopes.declared.length = h.given.length
  counted : ∀ name, h.scopes.redeclared name = h.redeclared.count name

theorem empty_wf : empty.WF :=
  ⟨Scopes.empty_wf, rfl, fun _ hn => (by cases hn), rfl, fun _ => rfl⟩

/-- The history knows what the scopes have bound. -/
theorem isLive_eq {h : History} (hw : h.WF) (name : String) :
    h.isLive name = h.scopes.isBound name := by
  rw [Bool.eq_iff_iff, isBound_iff, isLive, hw.live, List.any_eq_true]
  simp only [beq_iff_eq, visible]

theorem record_wf {h : History} (hw : h.WF) {name : String} (hs : isSourceName name = true)
    (type : Ty) (span : Span) :
    (h.record name (h.scopes.nextName name) type (h.scopes.add name type span).2).WF := by
  refine ⟨add_wf hw.scopes hs type span, ?_, ?_, ?_, ?_⟩
  · show push _ h.live = (h.scopes.add name type span).2.frames
    rw [frames_add, hw.live, nextBinding, hw.table]
  · intro javaName hj
    rcases List.mem_append.1 hj with hj | hj
    · exact hw.given javaName hj
    · rw [List.mem_singleton.1 hj]
      exact isName_nextName hs
  · show (h.scopes.add name type span).2.declared.length = (h.given ++ _).length
    rw [declared_add, List.length_append, hw.table, List.length_append]; rfl
  · intro other
    show (h.scopes.add name type span).2.redeclared other = List.count other (if _ then _ else _)
    rw [redeclared_add, isLive_eq hw]
    cases hb : h.scopes.isBound name with
    | false => simpa using hw.counted other
    | true =>
      by_cases ho : other = name
      · subst ho; simp [hw.counted other]
      · simp [ho, hw.counted other, List.count_cons_of_ne (Ne.symm ho)]

/-- No operation loses the invariant. -/
theorem step_wf {h : History} (hw : h.WF) (op : Op) : (h.step op).WF := by
  cases op with
  | enter =>
    exact ⟨enter_wf hw.scopes, congrArg ([] :: ·) hw.live, hw.given, hw.table, hw.counted⟩
  | exit => exact ⟨exit_wf hw.scopes, congrArg List.tail hw.live, hw.given, hw.table, hw.counted⟩
  | declare name type span =>
    cases hs : isSourceName name with
    | false => simpa [step, declare, hs] using hw
    | true => simpa [step, declare, hs] using record_wf hw hs type span

/-- The invariant holds after any operations. -/
theorem run_wf (ops : List Op) : (run ops).WF := by
  have hfold : ∀ (ops : List Op) (h : History), h.WF → (ops.foldl step h).WF := by
    intro ops
    induction ops with
    | nil => intro h hw; exact hw
    | cons op rest ih => intro h hw; exact ih (h.step op) (step_wf hw op)
  exact hfold ops empty empty_wf

theorem step_declare {h : History} {name : String} (hs : isSourceName name = true) (type : Ty)
    (span : Span) : h.step (.declare name type span) =
      h.record name (h.scopes.nextName name) type (h.scopes.add name type span).2 := by
  simp [step, declare, hs]

theorem isLive_record (h : History) (name javaName : String) (type : Ty) (scopes : Scopes) :
    (h.record name javaName type scopes).isLive name = true := by
  simp [isLive, record, flatten_push]

theorem run_append (ops : List Op) (op : Op) : run (ops ++ [op]) = (run ops).step op := by
  simp [run]

/-- Counters do overflow: a name that is declared again and again in one frame takes its counter
through all numbers, and after the largest one through them once more. -/
theorem counter_declares {name : String} (hs : isSourceName name = true) (type : Ty) (span : Span)
    (n : Nat) : (run (List.replicate (n + 1) (.declare name type span))).scopes.counter name =
      UInt32.ofNat n := by
  have hcount : ∀ n, let h := run (List.replicate (n + 1) (.declare name type span))
      h.isLive name = true ∧ h.redeclared.count name = n := by
    intro n
    induction n with
    | zero =>
      rw [List.replicate_succ', run_append, step_declare hs]
      exact ⟨isLive_record .., rfl⟩
    | succ n ih =>
      obtain ⟨hlive, hcount⟩ := ih
      rw [List.replicate_succ', run_append, step_declare hs]
      refine ⟨isLive_record .., ?_⟩
      rw [record, if_pos hlive, List.count_cons_self, hcount]
  have hw := run_wf (List.replicate (n + 1) (.declare name type span))
  rw [hw.scopes.counted, hw.counted, (hcount n).2]

end History

/-- The latest declaration of `name` in the innermost frame that has one is bound to `b`. -/
def Innermost (live : List (List (String × Binding))) (name : String) (b : Binding) : Prop :=
  ∃ inner frame outer, live = inner ++ frame :: outer ∧ (∀ f ∈ inner, ∀ d ∈ f, d.1 ≠ name) ∧
    ∃ later earlier, frame = later ++ (name, b) :: earlier ∧ ∀ d ∈ later, d.1 ≠ name

/-- The binding that is found is in the innermost frame that has one. -/
theorem innermost_of_find? {s : Scopes} {name : String} {b : Binding} (h : s.find? name = some b) :
    Innermost s.frames name b := by
  unfold find? at h
  obtain ⟨inner, frame, outer, hl, hf, hinner⟩ := List.findSome?_eq_some_iff.1 h
  obtain ⟨later, earlier, hframe, hlater⟩ := List.lookup_eq_some_iff.1 hf
  refine ⟨inner, frame, outer, hl, ?_, later, earlier, hframe, ?_⟩
  · intro f hf d hd he
    have := List.lookup_eq_none_iff.1 (hinner f hf) d hd
    simp [he] at this
  · intro d hd he
    have := hlater d hd
    simp [he] at this

/-- After every prefix of every run: the live declarations have pairwise distinct Java names, unless
some name was declared 2^32 times while it was bound; every name ever handed out is one that Java
takes, so none is reserved; and a name is bound just if it is that of a live declaration, and then
stands for the latest one in the innermost frame that has one, while any other name is unresolved.
Counters are exact modulo 2^32: a name's counter is the number of its declarations while it was
bound. -/
theorem run_no_collision (ops : List Op) (n : Nat) :
    let h := History.run (ops.take n)
    ((∀ name, h.redeclared.count name < UInt32.size) →
        (h.live.flatten.map (·.2.javaName)).Nodup) ∧
      (∀ javaName ∈ h.given, isName javaName = true ∧ isReserved javaName = false) ∧
      (∀ name, h.scopes.isBound name = true ↔ ∃ d ∈ h.live.flatten, d.1 = name) ∧
      (∀ name span, h.scopes.isBound name = true →
        ∃ b, h.scopes.resolve name span = .ok b ∧ Innermost h.live name b) ∧
      (∀ name span, h.scopes.isBound name = false →
        h.scopes.resolve name span = .error ⟨.unresolved name, span.start⟩) ∧
      ∀ name, h.scopes.counter name = UInt32.ofNat (h.redeclared.count name) := by
  intro h
  have hw : h.WF := History.run_wf (ops.take n)
  refine ⟨?_, ?_, ?_, ?_, ?_, fun name => hw.counted name ▸ hw.scopes.counted name⟩
  · intro hfew
    rw [hw.live]
    exact hw.scopes.distinct fun name => hw.counted name ▸ hfew name
  · intro javaName hj
    have hn := hw.given javaName hj
    refine ⟨hn, ?_⟩
    simp [isName] at hn
    exact hn.2
  · intro name
    rw [isBound_iff, hw.live]; rfl
  · intro name span hb
    cases hf : h.scopes.find? name with
    | none => simp [isBound, hf] at hb
    | some b => exact ⟨b, by simp [resolve, hf], hw.live ▸ innermost_of_find? hf⟩
  · intro name span hb
    cases hf : h.scopes.find? name with
    | none => simp [resolve, hf]
    | some b => simp [isBound, hf] at hb

/-- Declarations of one name in two frames, two of them in one. -/
def shadowingRun : List Op :=
  [.enter, .declare "x" .int .zero, .declare "x" .int .zero, .enter, .declare "for" .int .zero,
    .declare "x" .int .zero]

theorem shadowingRun_no_collision :
    let h := History.run (shadowingRun.take 6)
    h.redeclared = ["x", "x"] ∧
      h.live.flatten.map (·.2.javaName) = ["x$2", "for$", "x$1", "x"] ∧
      (h.live.flatten.map (·.2.javaName)).Nodup ∧
      (∃ b, h.scopes.resolve "x" .zero = .ok b ∧ Innermost h.live "x" b) ∧
      h.scopes.resolve "y" .zero = .error ⟨.unresolved "y", Span.zero.start⟩ := by
  intro h
  obtain ⟨hdistinct, -, -, hbound, hunbound, -⟩ := run_no_collision shadowingRun 6
  have htwice : h.redeclared = ["x", "x"] := by decide +kernel
  refine ⟨htwice, by decide +kernel, hdistinct fun name => ?_, hbound _ _ (by decide +kernel),
    hunbound _ _ (by decide +kernel)⟩
  refine Nat.lt_of_le_of_lt List.count_le_length ?_
  show h.redeclared.length < _
  rw [htwice]
  decide

end PixelJava.Scopes
