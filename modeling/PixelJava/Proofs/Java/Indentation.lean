/-
The layout of nested text. On the lines of a text whose braces a reader accepts, layout counts what
the reader counts, so it never takes more from the open braces than there are. Each line that is not
empty is indented by the braces open before it, less those that the line begins with closing.
-/
import PixelJava.Proofs.Java.Nesting

namespace PixelJava.Java

open Text

/-! ## The scan of a line -/

/-- The number of closing braces that a line begins with, behind its indentation. -/
def closings (line : List Char) : Nat :=
  ((line.dropWhile isBlank).takeWhile (· = '\x7d')).length

namespace LineScan

/-- Whether the scan is where a reader of literals is. -/
def IsIn (s : LineScan) (mode : Mode) : Prop :=
  s.inString = !decide (mode = .code) ∧ s.escaped = decide (mode = .escape)

variable {s : LineScan} {mode : Mode}

theorem isIn_step (h : s.IsIn mode) (c : Char) : (s.step c).IsIn (mode.next c) := by
  obtain ⟨hin, hescaped⟩ := h
  unfold step
  cases mode with
  | code =>
    have hout : ¬s.inString = true := by simp [hin]
    rw [if_neg hout, Mode.next]
    split
    · exact ⟨rfl, hescaped⟩
    repeat' split
    all_goals exact ⟨hin, hescaped⟩
  | literal =>
    have hliteral : s.inString = true := hin
    have hplain : ¬s.escaped = true := by simp [hescaped]
    rw [if_pos hliteral, if_neg hplain, Mode.next]
    split
    · exact ⟨hin, rfl⟩
    split
    · exact ⟨rfl, hescaped⟩
    · exact ⟨hin, hescaped⟩
  | escape =>
    have hliteral : s.inString = true := hin
    have hbackslash : s.escaped = true := hescaped
    rw [if_pos hliteral, if_pos hbackslash]
    exact ⟨hin, rfl⟩

/-- What the next character adds, of which a reader sees `shown`. -/
theorem counts_step (h : s.IsIn mode) (c : Char) :
    let shown := if mode = .code then c else '"'
    (s.step c).opens = s.opens + (if shown = '\x7b' then 1 else 0) ∧
      (s.step c).closes = s.closes + (if shown = '\x7d' then 1 else 0) ∧
      s.leading ≤ (s.step c).leading ∧
      (s.step c).leading + s.closes ≤ s.leading + (s.step c).closes := by
  have hin := h.1
  unfold step
  by_cases hmode : mode = .code
  · have hout : ¬s.inString = true := by simp [hin, hmode]
    rw [if_neg hout]
    simp only [hmode, if_true]
    split
    · rename_i hc
      simp [hc]
    split
    · rename_i hc
      simp [hc]
    split
    · cases s.atStart
      · simp
      · simp
        omega
    · split <;> simp
  · have hliteral : s.inString = true := by simp [hin, hmode]
    have hquote : '"' ≠ '\x7b' ∧ '"' ≠ '\x7d' := by decide
    rw [if_pos hliteral]
    simp only [hmode, if_false, hquote.1, hquote.2]
    split
    · simp
    split
    · simp
    split <;> simp

/-- The braces of a scanned line are those of the masked line. -/
theorem counts_foldl (h : s.IsIn mode) (line : List Char) :
    (line.foldl step s).opens = s.opens + (mask mode line).count '\x7b' ∧
      (line.foldl step s).closes = s.closes + (mask mode line).count '\x7d' ∧
      s.leading ≤ (line.foldl step s).leading ∧
      (line.foldl step s).leading + s.closes ≤ s.leading + (line.foldl step s).closes := by
  induction line generalizing s mode with
  | nil => exact ⟨rfl, rfl, Nat.le_refl _, Nat.le_refl _⟩
  | cons c rest ih =>
    obtain ⟨hopens, hcloses, hle, hleading⟩ := counts_step h c
    obtain ⟨hopens', hcloses', hle', hleading'⟩ := ih (isIn_step h c)
    rw [List.foldl_cons, mask, List.count_cons, List.count_cons]
    simp only [beq_iff_eq]
    omega

theorem isIn_start : start.IsIn .code :=
  ⟨rfl, rfl⟩

theorem counts_ofLine (line : List Char) :
    (ofLine line).opens = (mask .code line).count '\x7b' ∧
      (ofLine line).closes = (mask .code line).count '\x7d' ∧
      (ofLine line).leading ≤ (ofLine line).closes := by
  obtain ⟨hopens, hcloses, -, hleading⟩ := counts_foldl isIn_start line
  simp only [start, Nat.zero_add, Nat.add_zero] at hopens hcloses hleading
  exact ⟨hopens, hcloses, hleading⟩

/-- Behind its start a line begins with nothing more. -/
theorem leading_foldl (h : s.atStart = false) (line : List Char) :
    (line.foldl step s).leading = s.leading := by
  induction line generalizing s with
  | nil => rfl
  | cons c rest ih =>
    have hstep : (s.step c).atStart = false ∧ (s.step c).leading = s.leading := by
      unfold step
      split
      · repeat' split
        all_goals exact ⟨h, rfl⟩
      · repeat' split
        all_goals first | exact ⟨h, rfl⟩ | exact ⟨rfl, rfl⟩ | simp_all
    rw [List.foldl_cons, ih hstep.1, hstep.2]

end LineScan

/-! ## Layout of one line -/

section Line

variable {depth : Nat} {n : Nesting} {line : List Char}

/-- A reader that has closed a brace does not close another one right behind it. -/
theorem takeWhile_of_closed (h : (Nesting.mk .code depth true).read? line = some n) :
    line.takeWhile (· = '\x7d') = [] := by
  cases line with
  | nil => rfl
  | cons c rest =>
    obtain ⟨next, hstep, -⟩ := Nesting.read?_of_cons h
    refine List.takeWhile_cons_of_neg ?_
    rcases Nesting.step?_cases hstep with ⟨-, rfl, -⟩ | ⟨-, -, -, hclosed, -⟩ | ⟨-, rfl, -⟩ | ⟨hc, -, -⟩
    · decide
    · cases hclosed
    · decide
    · simpa using (hc rfl).2

/-- A line begins with closing one brace at most, and this one is open. -/
theorem closings_closing {rest : List Char}
    (h : (Nesting.atLine depth).read? ('\x7d' :: rest) = some n) :
    closings ('\x7d' :: rest) = 1 ∧ 0 < depth := by
  obtain ⟨next, hstep, hrest⟩ := Nesting.read?_of_cons h
  rcases Nesting.step?_cases hstep with ⟨-, hc, -⟩ | ⟨-, -, hpos, -, rfl⟩ | ⟨-, hc, -⟩ | ⟨hc, -, -⟩
  · cases hc
  · have hblank : ∀ c, ('\x7d' :: rest).head? = some c → isBlank c = false := by
      intro c hc
      cases hc
      decide
    rw [closings, dropWhile_isBlank hblank, List.takeWhile_cons_of_pos (by simp),
      takeWhile_of_closed hrest]
    exact ⟨rfl, hpos⟩
  · cases hc
  · exact absurd rfl (hc rfl).2

theorem closings_of_ne {c : Char} {rest : List Char} (hblank : isBlank c = false)
    (hc : c ≠ '\x7d') : closings (c :: rest) = 0 := by
  rw [closings, List.dropWhile_cons_of_neg (by simp [hblank]),
    List.takeWhile_cons_of_neg (by simpa using hc)]
  rfl

/-- The scan of a line agrees with a reader on the braces that the line begins with. -/
theorem leading_ofLine (hhead : ∀ c, line.head? = some c → isBlank c = false) (hline : '\n' ∉ line)
    (h : (Nesting.atLine depth).read? line = some n) :
    (LineScan.ofLine line).leading = closings line ∧ closings line ≤ depth := by
  cases line with
  | nil => exact ⟨rfl, Nat.zero_le depth⟩
  | cons c rest =>
    by_cases hc : c = '\x7d'
    · subst hc
      obtain ⟨hone, hpos⟩ := closings_closing h
      -- the scan has closed a brace with the first character, and a line closes no second one
      have hge : 1 ≤ (LineScan.ofLine ('\x7d' :: rest)).leading :=
        (LineScan.counts_foldl (LineScan.isIn_step LineScan.isIn_start '\x7d') rest).2.2.1
      obtain ⟨-, hcloses, hle⟩ := LineScan.counts_ofLine ('\x7d' :: rest)
      have hclosed := Nesting.closed_of_read? hline h
      have hbound := n.closed.toNat_le
      simp only [Bool.toNat_false, Nat.zero_add] at hclosed
      omega
    · have hblank := hhead c rfl
      have hspace : ¬(decide (c = ' ') || decide (c = '\t')) = true := by
        simp only [Bool.or_eq_true, decide_eq_true_eq]
        rintro (rfl | rfl) <;> exact absurd hblank (by decide)
      have hstart : (LineScan.start.step c).atStart = false ∧
          (LineScan.start.step c).leading = 0 := by
        rw [LineScan.step, if_neg (by decide), if_neg hc, if_neg hspace]
        repeat' split
        all_goals exact ⟨rfl, rfl⟩
      rw [closings_of_ne hblank hc, LineScan.ofLine, List.foldl_cons,
        LineScan.leading_foldl hstart.1, hstart.2]
      exact ⟨rfl, Nat.zero_le depth⟩

/-- Behind a line the open braces are those that the scan says. -/
theorem depth_ofLine (h : (Nesting.atLine depth).read? line = some n) :
    depth + (LineScan.ofLine line).opens - (LineScan.ofLine line).closes = n.depth := by
  obtain ⟨hopens, hcloses, -⟩ := LineScan.counts_ofLine line
  have hcount := Nesting.count_of_read? h
  simp only at hcount
  omega

/-- Blanks on a line change nothing for a reader outside literals, and lead no reader out of one. -/
theorem Nesting.eq_of_read?_blanks {n n' : Nesting} {blanks : List Char}
    (hblanks : ∀ c ∈ blanks, isBlank c = true) (hline : '\n' ∉ blanks)
    (h : n.read? blanks = some n') (hmode : n'.mode = .code) : n' = n := by
  induction blanks generalizing n with
  | nil => exact (Option.some.inj h).symm
  | cons c rest ih =>
    obtain ⟨next, hstep, hrest⟩ := Nesting.read?_of_cons h
    have hc := hblanks c List.mem_cons_self
    obtain rfl := ih (fun d hd => hblanks d (List.mem_cons_of_mem c hd))
      (fun hmem => hline (List.mem_cons_of_mem c hmem)) hrest
    rcases Nesting.step?_cases hstep with ⟨-, rfl, -⟩ | ⟨-, rfl, -⟩ | ⟨-, rfl, -⟩ | ⟨-, -, rfl⟩
    · exact absurd hc (by decide)
    · exact absurd hc (by decide)
    · exact absurd List.mem_cons_self hline
    · have hnext : n.mode.next c = .code := hmode
      have hescape : n.mode ≠ .escape := by
        intro heq
        rw [heq] at hnext
        cases hnext
      rw [next_blank hc hescape]

theorem isPlain_of_isBlank {c : Char} (hblank : isBlank c = true) (hnew : c ≠ '\n') :
    isPlain c = true := by
  refine isPlain_eq_true.2 ⟨?_, ?_, ?_, hnew⟩ <;> rintro rfl <;> exact absurd hblank (by decide)

/-- Trimming a line changes nothing for a reader. -/
theorem read?_trim (hline : '\n' ∉ line) (h : (Nesting.atLine depth).read? line = some n)
    (hmode : n.mode = .code) : (Nesting.atLine depth).read? (trim line) = some n := by
  obtain ⟨before, after, htrim, hbefore, hafter⟩ := exists_trim line
  have hfront : Neutral before := by
    refine neutral_of_isPlain fun c hc => isPlain_of_isBlank (hbefore c hc) ?_
    rintro rfl
    exact hline (htrim ▸ List.mem_append_left _ hc)
  rw [htrim, Nesting.read?_append, hfront, Option.bind_some] at h
  obtain ⟨middle, hmiddle, hback⟩ := Nesting.read?_of_append h
  have hlast : '\n' ∉ after := fun hmem =>
    hline (htrim ▸ List.mem_append_right _ (List.mem_append_right _ hmem))
  rw [hmiddle, Nesting.eq_of_read?_blanks hafter hlast hback hmode]

theorem read?_dropReturn {seen : List Char}
    (h : (Nesting.atLine depth).read? seen.reverse = some n) (hmode : n.mode = .code) :
    (Nesting.atLine depth).read? (dropReturn seen).reverse = some n := by
  unfold dropReturn
  split
  · rename_i rest
    rw [List.reverse_cons] at h
    obtain ⟨middle, hmiddle, hback⟩ := Nesting.read?_of_append h
    have hreturn : ∀ c ∈ ['\r'], isBlank c = true := List.forall_mem_singleton.2 (by decide)
    rw [hmiddle, Nesting.eq_of_read?_blanks hreturn (by decide) hback hmode]
  · exact h

end Line

/-! ## Lines of nested text -/

/-- Lines that a reader accepts one by one, from the depth before the first to the depth behind the
last; no literal is left open at the end of a line. -/
inductive NestedLines : Nat → List (List Char) → Nat → Prop where
  | nil (depth : Nat) : NestedLines depth [] depth
  | cons {depth final : Nat} {n : Nesting} {line : List Char} {rest : List (List Char)}
      (hline : (Nesting.atLine depth).read? line = some n) (hmode : n.mode = .code)
      (hrest : NestedLines n.depth rest final) : NestedLines depth (line :: rest) final

theorem nestedLines_linesFrom {depth : Nat} {n : Nesting} {seen text : List Char}
    (h : (Nesting.atLine depth).read? (seen.reverse ++ text) = some n) (hmode : n.mode = .code) :
    NestedLines depth (linesFrom seen text) n.depth := by
  induction text generalizing depth seen with
  | nil =>
    rw [List.append_nil] at h
    unfold linesFrom
    split
    · rename_i hempty
      rw [List.isEmpty_iff.1 hempty] at h
      cases h
      exact .nil depth
    · exact .cons h hmode (.nil n.depth)
  | cons c rest ih =>
    unfold linesFrom
    split
    · rename_i hc
      subst hc
      obtain ⟨middle, hseen, hnew⟩ := Nesting.read?_of_append h
      obtain ⟨hcode, hrest⟩ := Nesting.read?_of_newline hnew
      have hlast : ([] : List Char).reverse ++ rest = rest := rfl
      exact .cons (read?_dropReturn hseen hcode) hcode (ih (hlast.symm ▸ hrest))
    · refine ih ?_
      rwa [List.reverse_cons, List.append_assoc, List.singleton_append]

theorem nestedLines_lines {depth : Nat} {n : Nesting} {text : List Char}
    (h : (Nesting.atLine depth).read? text = some n) (hmode : n.mode = .code) :
    NestedLines depth (lines text) n.depth :=
  nestedLines_linesFrom h hmode

theorem NestedLines.map_trim {depth final : Nat} {ls : List (List Char)}
    (hnew : ∀ line ∈ ls, '\n' ∉ line) (h : NestedLines depth ls final) :
    NestedLines depth (ls.map trim) final := by
  induction h with
  | nil depth => exact .nil depth
  | cons hline hmode _ ih =>
    rw [List.forall_mem_cons] at hnew
    exact .cons (read?_trim hnew.1 hline hmode) hmode (ih hnew.2)

/-! ## Layout -/

/-- A line with the indentation that it has where `depth` braces are open before it. -/
def indented (depth : Nat) (line : List Char) : List Char :=
  if line.isEmpty then [] else List.replicate (indentWidth * (depth - closings line)) ' ' ++ line

/-- A line as trimming leaves it. -/
structure Trimmed (line : List Char) : Prop where
  head : ∀ c, line.head? = some c → isBlank c = false
  line : '\n' ∉ line

section Layout

variable {depth final : Nat} {n : Nesting} {line : List Char} {rest ls : List (List Char)}

/-- Layout goes from line to line as a reader does. -/
theorem layoutLines_cons (htrim : Trimmed line) (h : (Nesting.atLine depth).read? line = some n) :
    layoutLines depth (line :: rest) = indented depth line :: layoutLines n.depth rest := by
  rw [layoutLines, indented]
  split
  · rename_i hempty
    rw [List.isEmpty_iff.1 hempty] at h
    cases h
    rfl
  · simp only [(leading_ofLine htrim.head htrim.line h).1, depth_ofLine h]

theorem neutral_indent (k : Nat) : Neutral (List.replicate k ' ') := by
  refine neutral_of_isPlain fun c hc => ?_
  rw [List.eq_of_mem_replicate hc]
  decide

theorem read?_indented (h : (Nesting.atLine depth).read? line = some n) :
    (Nesting.atLine depth).read? (indented depth line) = some n := by
  unfold indented
  split
  · rename_i hempty
    rwa [List.isEmpty_iff.1 hempty] at h
  · rw [Nesting.read?_append, neutral_indent, Option.bind_some, h]

theorem read?_ended (h : (Nesting.atLine depth).read? line = some n) (hmode : n.mode = .code) :
    (Nesting.atLine depth).read? (line ++ ['\n']) = some (.atLine n.depth) := by
  obtain ⟨mode, depth', closed⟩ := n
  subst hmode
  rw [Nesting.read?_append, h, Option.bind_some, Nesting.read?_newline]

/-- A reader of the laid out text comes to the depth that it has in the text. -/
theorem read?_layoutLines (htrim : ∀ line ∈ ls, Trimmed line) (h : NestedLines depth ls final) :
    (Nesting.atLine depth).read? (unlines (layoutLines depth ls)) = some (.atLine final) := by
  induction h with
  | nil depth => rfl
  | cons hline hmode _ ih =>
    rw [List.forall_mem_cons] at htrim
    rw [layoutLines_cons htrim.1 hline, unlines, List.flatMap_cons, Nesting.read?_append,
      read?_ended (read?_indented hline) hmode]
    exact ih htrim.2

theorem dropWhile_indented (k : Nat) (hhead : ∀ c, line.head? = some c → isBlank c = false) :
    (List.replicate k ' ' ++ line).dropWhile isBlank = line := by
  rw [List.dropWhile_append_of_pos fun _ => isBlank_of_mem_indent, dropWhile_isBlank hhead]

/-- An indented line that is not empty has four blanks for each brace that is open before it and
that it does not begin with closing. -/
theorem exists_indented (htrim : Trimmed line) (h : (Nesting.atLine depth).read? line = some n)
    (hne : indented depth line ≠ []) :
    closings (indented depth line) ≤ depth ∧ ∃ first rest, isBlank first = false ∧
      indented depth line =
        List.replicate (4 * (depth - closings (indented depth line))) ' ' ++ first :: rest := by
  unfold indented at hne ⊢
  split at hne
  · exact absurd rfl hne
  · rename_i hempty
    rw [if_neg hempty]
    have hclosings (k : Nat) : closings (List.replicate k ' ' ++ line) = closings line := by
      rw [closings, closings, dropWhile_indented k htrim.head, dropWhile_isBlank htrim.head]
    rw [hclosings]
    refine ⟨(leading_ofLine htrim.head htrim.line h).2, ?_⟩
    cases line with
    | nil => exact absurd rfl hempty
    | cons first rest => exact ⟨first, rest, htrim.head first rfl, rfl⟩

/-- Every line of the laid out text that is not empty is indented by what a reader finds open before
it. -/
theorem indent_of_layoutLines (htrim : ∀ line ∈ ls, Trimmed line) (h : NestedLines depth ls final)
    {before after : List (List Char)} (hsplit : layoutLines depth ls = before ++ line :: after)
    (hne : line ≠ []) :
    ∃ level, (Nesting.atLine depth).read? (unlines before) = some (.atLine level) ∧
      closings line ≤ level ∧ ∃ first rest, isBlank first = false ∧
        line = List.replicate (4 * (level - closings line)) ' ' ++ first :: rest := by
  induction h generalizing before with
  | nil depth => simp [layoutLines] at hsplit
  | @cons depth final n first rest hline hmode _ ih =>
    rw [List.forall_mem_cons] at htrim
    rw [layoutLines_cons htrim.1 hline] at hsplit
    cases before with
    | nil =>
      obtain ⟨rfl, -⟩ := List.cons.inj hsplit
      exact ⟨depth, rfl, exists_indented htrim.1 hline hne⟩
    | cons first' before =>
      obtain ⟨rfl, hrest⟩ := List.cons.inj hsplit
      obtain ⟨level, hread, hindent⟩ := ih htrim.2 hrest
      refine ⟨level, ?_, hindent⟩
      rw [unlines, List.flatMap_cons, Nesting.read?_append,
        read?_ended (read?_indented hline) hmode]
      exact hread

end Layout

theorem trimmed_of_mem {source : List Char} : ∀ line ∈ (lines source).map trim, Trimmed line := by
  intro line hline
  obtain ⟨raw, hraw, rfl⟩ := List.mem_map.1 hline
  obtain ⟨before, after, htrim, -, -⟩ := exists_trim raw
  refine ⟨head?_trim raw, fun hmem => newline_notMem_lines source raw hraw ?_⟩
  rw [htrim]
  exact List.mem_append_right before (List.mem_append_left after hmem)

namespace Nested

variable {source : String}

theorem nestedLines (h : Nested source.toList) :
    NestedLines 0 ((lines source.toList).map trim) 0 :=
  (nestedLines_lines (h 0) rfl).map_trim (newline_notMem_lines source.toList)

/-- Laid out, a nested text closes all its braces. -/
theorem read?_layout (h : Nested source.toList) :
    (Nesting.atLine 0).read? (layout source).toList = some (.atLine 0) := by
  rw [toList_layout]
  exact read?_layoutLines trimmed_of_mem h.nestedLines

/-- Each line of the laid out text that is not empty is indented by the braces open before it. -/
theorem indent_of_lineAt (h : Nested source.toList) {before line : List Char}
    (hline : LineAt (layout source).toList before line) (hne : line ≠ []) :
    closings line ≤ braceDepth before ∧ ∃ first rest, isBlank first = false ∧
      line = List.replicate (4 * (braceDepth before - closings line)).toNat ' ' ++ first :: rest := by
  have hlines := isLine_of_mem_layoutLines 0 (newline_notMem_lines source.toList)
  rw [toList_layout] at hline
  obtain ⟨front, back, hsplit, rfl⟩ := exists_of_lineAt (fun l hl => (hlines l hl).1) hline hne
  obtain ⟨level, hread, hle, first, rest, hblank, hindent⟩ :=
    indent_of_layoutLines trimmed_of_mem h.nestedLines hsplit hne
  have hdepth : braceDepth (unlines front) = level := by
    have := Nesting.depth_of_read? hread
    simpa using this.symm
  have hspaces : (4 * ((level : Int) - closings line)).toNat = 4 * (level - closings line) := by
    omega
  refine ⟨by omega, first, rest, hblank, ?_⟩
  rw [hdepth, hspaces]
  exact hindent

/-- Laid out, a nested text closes no brace before it is opened, and closes all of them. -/
theorem braceDepth_layout (h : Nested source.toList) :
    (∀ before, before <+: (layout source).toList → 0 ≤ braceDepth before) ∧
      braceDepth (layout source).toList = 0 := by
  refine ⟨fun before hp => ?_, ?_⟩
  · obtain ⟨rest, hrest⟩ := hp
    have hread := h.read?_layout
    rw [← hrest] at hread
    obtain ⟨middle, hbefore, -⟩ := Nesting.read?_of_append hread
    have hdepth := Nesting.depth_of_read? hbefore
    omega
  · have hdepth := Nesting.depth_of_read? h.read?_layout
    simpa using hdepth.symm

end Nested

end PixelJava.Java
