/-
Images that are written into. A binary operator whose result goes into the image variable on its left
is an update, and its code is a call that copies the result there. No update is lost, but some are
written more than once: an operation on each channel has the code of its operands once for each of
them, and an assignment to a channel of a pixel reads the old pixel with the code of the coordinates
once more. So there are as many calls as updates just if no update stands in such a place.
-/
import PixelJava.Proofs.Java.Literal
import PixelJava.Proofs.Java.Occurrence
import PixelJava.Proofs.Lowering.Reachable

namespace PixelJava

open LowerM LowerState

/-! ## Updates and their copies -/

/-- No update is without a call, and there are as many calls as updates just if none is repeated. -/
structure Accounts (updates copies : Nat) (repeatFree : Bool) : Prop where
  le : updates ≤ copies
  zero : updates = 0 → copies = 0
  exact : copies = updates ↔ repeatFree = true

namespace Accounts

variable {updates updates' copies copies' : Nat} {free free' : Bool}

theorem none : Accounts 0 0 true :=
  ⟨Nat.le_refl 0, fun _ => rfl, by simp⟩

theorem append (h : Accounts updates copies free) (h' : Accounts updates' copies' free') :
    Accounts (updates + updates') (copies + copies') (free && free') := by
  refine ⟨Nat.add_le_add h.le h'.le, fun hzero => ?_, ?_⟩
  · rw [h.zero (by omega), h'.zero (by omega)]
  · rw [Bool.and_eq_true, ← h.exact, ← h'.exact]
    have := h.le
    have := h'.le
    omega

/-- A further update that has its call. -/
theorem own (n : Nat) (h : Accounts updates copies free) (hn : n ≤ 1) :
    Accounts (updates + n) (n + copies) free := by
  refine ⟨?_, fun hzero => ?_, ?_⟩
  · have := h.le
    omega
  · rw [h.zero (by omega)]
    omega
  · rw [← h.exact]
    omega

/-- Code that is written several times repeats the calls of its updates, if there are any. -/
theorem repeated {times : Nat} (h : Accounts updates copies free) (htimes : 0 < times) :
    Accounts updates (times * copies) (!(times ≠ 1 && updates ≠ 0) && free) := by
  have hle : copies ≤ times * copies := Nat.le_mul_of_pos_left copies htimes
  refine ⟨Nat.le_trans h.le hle, fun hzero => by rw [h.zero hzero, Nat.mul_zero], ?_⟩
  by_cases hone : times = 1
  · simpa [hone] using h.exact
  · by_cases hzero : updates = 0
    · have hc := h.zero hzero
      have hfree : free = true := h.exact.1 (hc.trans hzero.symm)
      simp [hzero, hc, hfree]
    · -- at least two of each call are more than there are updates
      have htwo : 2 * copies ≤ times * copies := Nat.mul_le_mul_right copies (by omega)
      have := h.le
      simp only [hone, hzero, ne_eq, not_false_eq_true, decide_true, Bool.and_self, Bool.not_true,
        Bool.false_and, Bool.false_eq_true, iff_false]
      omega

end Accounts

namespace Expr

/-- Whether the result of the expression goes into a variable. -/
def isUpdate : Expr → Bool
  | .binary left op right _ _ => (inPlaceVariable? left op right).isSome
  | _ => false

/-- The number of updates in an expression. -/
def updates (e : Expr) : Nat :=
  e.nodes.countP isUpdate

/-- The number of calls that updates become in the code of an expression. -/
def copies : Expr → Nat
  | .ident .. | .num .. | .str .. | .bool .. | .const .. => 0
  | .cond guard whenTrue whenFalse _ _ => guard.copies + (whenTrue.copies + whenFalse.copies)
  | .binary left op right _ _ =>
    (if (inPlaceVariable? left op right).isSome then 1 else 0) +
      (operationOf left op right).times * (left.copies + right.copies)
  | .unary _ operand _ _ => operand.copies
  | .select primary _ _ _ => primary.copies
  | .selectAt primary x y _ _ _ _ => primary.copies + (x.copies + y.copies)
  | .pixel red green blue _ => red.copies + (green.copies + blue.copies)

/-- Whether the expression is an operation on each channel with an update in an operand. -/
def repeatsUpdate : Expr → Bool
  | .binary left op right _ _ =>
    (operationOf left op right).times ≠ 1 && left.updates + right.updates ≠ 0
  | _ => false

/-- Whether no operation on each channel has an update in an operand. -/
def isRepeatFree (e : Expr) : Bool :=
  e.nodes.all (!·.repeatsUpdate)

theorem accounts (e : Expr) : Accounts e.updates e.copies e.isRepeatFree := by
  -- only operations are updates or repeat some; the other nodes add nothing to their parts
  induction e with
  | ident | num | str | bool | const => exact .none
  | cond guard whenTrue whenFalse type span ihg iht ihf =>
    simp only [updates, isRepeatFree, nodes, List.countP_cons, List.countP_append, List.all_cons,
      List.all_append]
    exact ihg.append (iht.append ihf)
  | binary left op right type span ihl ihr =>
    have htimes : 0 < (operationOf left op right).times := by
      cases operationOf left op right <;> decide
    simp only [updates, isRepeatFree, nodes, List.countP_cons, List.countP_append, List.all_cons,
      List.all_append]
    exact ((ihl.append ihr).repeated htimes).own
      (if (inPlaceVariable? left op right).isSome then 1 else 0) (by split <;> decide)
  | unary op operand type span ih =>
    simp only [updates, isRepeatFree, nodes, List.countP_cons, List.all_cons]
    exact ih
  | select primary channel type span ih =>
    simp only [updates, isRepeatFree, nodes, List.countP_cons, List.all_cons]
    exact ih
  | selectAt primary x y place channel type span ih ihx ihy =>
    simp only [updates, isRepeatFree, nodes, List.countP_cons, List.countP_append, List.all_cons,
      List.all_append]
    exact ih.append (ihx.append ihy)
  | pixel red green blue span ihr ihg ihb =>
    simp only [updates, isRepeatFree, nodes, List.countP_cons, List.countP_append, List.all_cons,
      List.all_append]
    exact ihr.append (ihg.append ihb)

end Expr

/-! ## Calls in the code of expressions -/

theorem copyCalls_operate {how : Java.Operation} {op : BinaryOp} {leftType : Ty}
    {left right : Java.Expr} {target : Option String}
    (h : ∀ name, target = some name → Java.copyCalls name.toList = 0) :
    Java.copyCalls (operate how op leftType left right target).text.toList =
      (if target.isSome then 1 else 0) + how.times *
        (Java.copyCalls left.text.toList + Java.copyCalls right.text.toList) := by
  have hresult : Java.copyCalls (operate how op leftType left right none).text.toList =
      how.times * (Java.copyCalls left.text.toList + Java.copyCalls right.text.toList) := by
    unfold operate
    split
    · rw [Java.Expr.copyCalls_binary, Nat.add_comm (Java.copyCalls right.text.toList)]
    · exact Java.Expr.copyCalls_binary ..
  cases target with
  | none => rw [hresult]; exact (Nat.zero_add _).symm
  | some name =>
    have hname : Java.copyCalls (Java.Expr.name name).text.toList = 0 := h name rfl
    have hcall := Java.Expr.copyCalls_call2 (operate how op leftType left right none) (.name name)
      .copyInto
    rw [hname, hresult] at hcall
    exact hcall

/-- The calls in the code of an expression are those of its updates, if its names and literals hold
none. -/
theorem copyCalls_emit {names : String → String} {e : Expr}
    (h : ∀ leaf ∈ (e.emit names).leaves, Java.copyCalls leaf.toList = 0) :
    Java.copyCalls (e.emit names).text.toList = e.copies := by
  induction e with
  | ident | num | str | bool | const => exact h _ List.mem_cons_self
  | cond guard whenTrue whenFalse type span ihg iht ihf =>
    simp only [Expr.emit, Java.Expr.leaves, List.forall_mem_append] at h
    rw [Expr.emit, Java.Expr.copyCalls_cond, ihg h.1, iht h.2.1, ihf h.2.2]
    rfl
  | binary left op right type span ihl ihr =>
    have hl := ihl fun leaf hleaf => h leaf (mem_leaves_operate.2 (.inl hleaf))
    have hr := ihr fun leaf hleaf => h leaf (mem_leaves_operate.2 (.inr (.inl hleaf)))
    rw [Expr.emit, copyCalls_operate fun name hname =>
      h name (mem_leaves_operate.2 (.inr (.inr hname))), hl, hr, Option.isSome_map]
    rfl
  | unary op operand type span ih =>
    rw [Expr.emit, Java.Expr.copyCalls_unary]
    exact ih h
  | select primary channel type span ih =>
    cases channel with
    | none => exact ih h
    | some c =>
      rw [Expr.emit, Java.Expr.copyCalls_call1]
      · exact ih h
      · unfold selectMethod
        split <;> simp
  | selectAt primary x y place channel type span ih ihx ihy =>
    have hpixel : Java.copyCalls (Java.Expr.call3 .getPixel (primary.emit names) (x.emit names)
        (y.emit names)).text.toList = primary.copies + (x.copies + y.copies) := by
      have hparts : ∀ leaf ∈ (primary.emit names).leaves ++
          ((x.emit names).leaves ++ (y.emit names).leaves), Java.copyCalls leaf.toList = 0 := by
        cases channel <;> exact h
      simp only [List.forall_mem_append] at hparts
      rw [Java.Expr.copyCalls_call3 _ _ _ (by decide), ih hparts.1, ihx hparts.2.1, ihy hparts.2.2]
    cases channel with
    | none => exact hpixel
    | some c =>
      rw [Expr.emit, Java.Expr.copyCalls_call1 _ (by simp)]
      exact hpixel
  | pixel red green blue span ihr ihg ihb =>
    simp only [Expr.emit, Java.Expr.leaves, List.forall_mem_append] at h
    rw [Expr.emit, Java.Expr.copyCalls_call3 _ _ _ (by decide), ihr h.1, ihg h.2.1, ihb h.2.2]
    rfl

/-! ## Calls in the code of assignments -/

/-- The coordinates of the pixel that is assigned to. -/
def Target.coordinates (target : Target) : List Expr :=
  target.pixel.elim [] fun p => [p.x, p.y]

/-- How often the coordinates are written: to set a channel, the old pixel is read. -/
def Target.times (target : Target) : Nat :=
  if target.channel.isSome then 2 else 1

/-- The number of calls that updates become in the code of an assignment. -/
def assignmentCopies (target : Target) (value : Expr) : Nat :=
  target.times * (target.coordinates.map Expr.copies).sum + value.copies

/-- The number of updates in an assignment. -/
def assignmentUpdates (target : Target) (value : Expr) : Nat :=
  (target.coordinates.map Expr.updates).sum + value.updates

/-- Whether no update stands in an operand of an operation on each channel, nor in coordinates that
are written twice. -/
def isRepeatFreeAssignment (target : Target) (value : Expr) : Bool :=
  (!(target.times ≠ 1 && (target.coordinates.map Expr.updates).sum ≠ 0) &&
    target.coordinates.all Expr.isRepeatFree) && value.isRepeatFree

theorem accounts_parts (parts : List Expr) :
    Accounts (parts.map Expr.updates).sum (parts.map Expr.copies).sum
      (parts.all Expr.isRepeatFree) := by
  induction parts with
  | nil => exact .none
  | cons e rest ih =>
    simp only [List.map_cons, List.sum_cons, List.all_cons]
    exact e.accounts.append ih

theorem accounts_assignment (target : Target) (value : Expr) :
    Accounts (assignmentUpdates target value) (assignmentCopies target value)
      (isRepeatFreeAssignment target value) := by
  have htimes : 0 < target.times := by
    unfold Target.times
    split <;> decide
  exact ((accounts_parts target.coordinates).repeated htimes).append value.accounts

theorem copyCalls_emitAssignment {s : Scopes} {target : Target} {value : Expr}
    (hname : Java.copyCalls (s.javaNameOf target.name).toList = 0)
    (hparts : ∀ e ∈ assignmentParts target value,
      Java.copyCalls (e.emit s.javaNameOf).text.toList = e.copies) :
    Java.copyCalls (emitAssignment s target value).text.toList = assignmentCopies target value := by
  have hvalue := hparts value (by simp [assignmentParts])
  unfold emitAssignment assignmentCopies Target.coordinates Target.times
  cases hpixel : target.pixel with
  | none =>
    cases target.channel with
    | none =>
      dsimp only
      split
      · rw [Java.copyCalls_perform, hvalue]
        simp
      · rw [Java.copyCalls_assign, hname, hvalue]
        simp
    | some c =>
      have hold : Java.copyCalls (Java.Expr.name (s.javaNameOf target.name)).text.toList = 0 := hname
      rw [Java.copyCalls_assign, Java.Expr.copyCalls_call2, hname, hold, hvalue]
      simp
  | some p =>
    have hx := hparts p.x (by simp [assignmentParts, hpixel])
    have hy := hparts p.y (by simp [assignmentParts, hpixel])
    cases target.channel with
    | none =>
      rw [Java.copyCalls_setPixel, hname, hx, hy, hvalue]
      simp only [Option.isSome_none, Bool.false_eq_true, if_false, Option.elim_some, List.map_cons,
        List.map_nil, List.sum_cons, List.sum_nil]
      omega
    | some c =>
      have hold : Java.copyCalls (Java.Expr.name (s.javaNameOf target.name)).text.toList = 0 := hname
      rw [Java.copyCalls_setPixel, Java.Expr.copyCalls_call2,
        Java.Expr.copyCalls_call3 _ _ _ (by decide), hname, hold, hx, hy, hvalue]
      simp only [reduceCtorEq, Option.isSome_some, if_true, if_false, Option.elim_some, List.map_cons,
        List.map_nil, List.sum_cons, List.sum_nil]
      omega

/-! ## Lowering -/

/-- Whether a text does not hold the name of the method that copies an image. -/
def lacksCopyInto (text : String) : Bool :=
  Java.occurrences "copyInto".toList text.toList = 0

theorem copyCalls_of_isName {name : String} (h : Java.isName name = true) :
    Java.copyCalls name.toList = 0 := by
  have hparen : '(' ∈ Java.copyOpening := by decide
  refine Java.occurrences_eq_zero_of_notMem hparen fun hmem => ?_
  rcases (chars_of_isName h).2 _ hmem with hword | hdollar
  · exact absurd hword (by decide)
  · exact absurd hdollar (by decide)

theorem leafRule_copyCalls :
    LeafRule lacksCopyInto lacksCopyInto fun leaf => Java.copyCalls leaf.toList = 0 := by
  have hlacks (text : String) (h : lacksCopyInto text = true) : Java.copyCalls text.toList = 0 := by
    refine Java.occurrences_eq_zero_of_infix (by decide) ?_ (of_decide_eq_true h)
    exact ⟨"ImageOps.".toList, ['('], by decide⟩
  refine ⟨fun _ => copyCalls_of_isName, fun value => ?_, fun n => ?_, hlacks, hlacks⟩
  · cases value <;> decide
  · -- an integer has no letters
    have hletter : 'I' ∈ Java.copyOpening := by decide
    refine Java.occurrences_eq_zero_of_notMem hletter fun hmem => ?_
    rcases Java.mem_integerText hmem with hdigit | hmark
    · exact absurd hdigit (by decide)
    · exact absurd hmark (by decide)

/-- In whatever state lowering is, and whatever is lowered, as long as no literal holds the name of
the method: every update has its call in the code of an expression, and in that of an assignment with
or without selectors. There are as many calls as updates just if no update is repeated: none stands in
an operand of an operation on each channel, nor in the coordinates of a pixel whose channel is
assigned. -/
theorem copyCalls_eq_updates_iff {limit : UInt64} {σ : LowerState limit} (hσ : σ.Reachable) :
    (∀ (e : Expr) (code : Java.Expr), e.literalsAre lacksCopyInto lacksCopyInto = true →
      (outcome e.lower σ).1 = .ok code →
        let calls := Java.copyCalls code.text.toList
        calls = e.copies ∧ e.updates ≤ calls ∧ (calls = e.updates ↔ e.isRepeatFree = true)) ∧
    ∀ (target : Target) (value : Expr) (span : Span) (code : Java.Stmt),
      (∀ e ∈ assignmentParts target value, e.literalsAre lacksCopyInto lacksCopyInto = true) →
      (outcome (Stmt.assign target value span).lower σ).1 = .ok code →
        let calls := Java.copyCalls code.text.toList
        calls = assignmentCopies target value ∧ assignmentUpdates target value ≤ calls ∧
          (calls = assignmentUpdates target value ↔
            isRepeatFreeAssignment target value = true) := by
  have hw := hσ.wf
  have hcalls (e : Expr) (hlit : e.literalsAre lacksCopyInto lacksCopyInto = true)
      (hclean : e.violations limit σ.scopes.isBound σ.depth = []) :
      Java.copyCalls (e.emit σ.scopes.javaNameOf).text.toList = e.copies :=
    copyCalls_emit (leaves_emit leafRule_copyCalls hlit (isName_of_mentions hw hclean))
  constructor
  · intro e code hlit hok calls
    obtain ⟨hclean, rfl⟩ := emit_of_lower hok
    obtain ⟨hle, -, hexact⟩ := e.accounts
    have heq : calls = e.copies := hcalls e hlit hclean
    rw [heq]
    exact ⟨rfl, hle, hexact⟩
  · intro target value span code hlit hok calls
    obtain ⟨hclean, rfl⟩ := accept_eq_ok
      ((gives_lowerStmt σ.depth σ.scopes (.assign target value span) σ rfl rfl).1.symm.trans hok)
    rw [Stmt.violations, Scopes.declares_around, List.append_eq_nil_iff,
      List.flatMap_eq_nil_iff] at hclean
    have hbound := Scopes.isBound_of_target hclean.1
    obtain ⟨hle, -, hexact⟩ := accounts_assignment target value
    have heq : calls = assignmentCopies target value :=
      copyCalls_emitAssignment (copyCalls_of_isName (Scopes.isName_javaNameOf hw hbound))
        fun e he => hcalls e (hlit e he) (hclean.2 e he)
    rw [heq]
    exact ⟨rfl, hle, hexact⟩

/-- The image variable `im` with a number added to each of its pixels, which is an update. -/
def brightened : Expr :=
  .binary (.ident "im" .image .zero) .plus (.num "1" .zero) .image .zero

/-- A pixel of an image. -/
def cornerOf (image : Expr) : Expr :=
  .selectAt image (.num "0" .zero) (.num "0" .zero) .zero none .pixel .zero

/-- The state in which the image variable `im` is declared. -/
def withImage : LowerState 9 :=
  (outcome (Step.declare "im" .image .zero).run .start).2

/-- Of the sum of a pixel of `im` and one of `im` with an update the update is written once. The
channel of a pixel whose place depends on an update is set with the update written twice. -/
theorem brightened_copyCalls :
    let sum : Expr := .binary (cornerOf (.ident "im" .image .zero)) .plus (cornerOf brightened)
      .pixel .zero
    let place : Expr := .select (cornerOf brightened) (some ⟨.red, .zero⟩) .int .zero
    let target : Target :=
      ⟨"im", some ⟨place, .num "0" .zero, .zero⟩, some ⟨.blue, .zero⟩, .image, .zero⟩
    withImage.Reachable ∧ ∃ code code', (outcome sum.lower withImage).1 = .ok code ∧
      Java.copyCalls code.text.toList = sum.updates ∧
      (outcome (Stmt.assign target (.num "7" .zero) .zero).lower withImage).1 = .ok code' ∧
      assignmentUpdates target (.num "7" .zero) = 1 ∧ Java.copyCalls code'.text.toList = 2 := by
  intro sum place target
  have hσ : withImage.Reachable := .step _ .start
  have hclean : sum.violations 9 withImage.scopes.isBound withImage.depth = [] := by decide +kernel
  have hok := (gives_lower sum withImage rfl rfl).1
  rw [hclean] at hok
  have hclean' : (Stmt.assign target (.num "7" .zero) .zero).violations 9 withImage.scopes.around
      withImage.depth = [] := by decide +kernel
  have hok' := (gives_lowerStmt _ _ (.assign target (.num "7" .zero) .zero) withImage rfl rfl).1
  rw [hclean'] at hok'
  obtain ⟨hexpr, hassign⟩ := copyCalls_eq_updates_iff hσ
  obtain ⟨-, -, hexact⟩ := hexpr sum _ (by decide) hok
  obtain ⟨hcalls, -⟩ := hassign target _ _ _ (by decide) hok'
  exact ⟨hσ, _, _, hok, hexact.2 (by decide), hok', by decide, hcalls.trans (by decide)⟩

/-- A pixel of an image that is written into, times a number: its one update is written three
times. -/
theorem scaled_corner_repeats_update :
    let scaled : Expr := .binary (cornerOf brightened) .times (.num "2" .zero) .pixel .zero
    ∃ code, withImage.Reachable ∧ scaled.literalsAre lacksCopyInto lacksCopyInto = true ∧
      (outcome scaled.lower withImage).1 = .ok code ∧ scaled.updates = 1 ∧
      Java.copyCalls code.text.toList = 3 := by
  intro scaled
  have hclean : scaled.violations 9 withImage.scopes.isBound withImage.depth = [] := by
    decide +kernel
  have hok := (gives_lower scaled withImage rfl rfl).1
  rw [hclean] at hok
  have hcalls : Java.copyCalls (scaled.emit withImage.scopes.javaNameOf).text.toList =
      scaled.copies := copyCalls_emit (by decide)
  exact ⟨_, .step _ .start, by decide, hok, by decide, hcalls.trans (by decide)⟩

end PixelJava
