/-
The lines of a source unit: those of its header, which has the package clause and the imports, and
those of its class. Laying out a unit changes no line of the header and not the first line of the
class, and it keeps the identifiers of the class.
-/
import PixelJava.Java.Printer
import PixelJava.Proofs.Java.Identifier

namespace PixelJava.Java

open Text

/-! ## Reading a unit -/

/-- Whether a class starts on the line. -/
def isClassLine (line : List Char) : Bool :=
  "public class ".toList.isPrefixOf line

/-- The import lines of a unit: lines before its class. -/
def importLines (source : String) : List (List Char) :=
  ((lines source.toList).takeWhile (!isClassLine ·)).filter ("import ".toList.isPrefixOf ·)

/-- The lines of a unit from the start of its class on. -/
def classLines (source : String) : List (List Char) :=
  (lines source.toList).dropWhile (!isClassLine ·)

/-! ## The lines of a header -/

/-- The line that imports a class. -/
def importLine (home : String) (lib : Library) : List Char :=
  ("import " ++ lib.path home ++ ";").toList

def packageLines (package : Option String) : List (List Char) :=
  package.elim [] fun p => [("package " ++ p ++ ";").toList, []]

def headerLines (package : Option String) (home : String) (imports : List Library) :
    List (List Char) :=
  packageLines package ++ (imports.map (importLine home) ++ if imports.isEmpty then [] else [[]])

theorem toList_header (package : Option String) (home : String) (imports : List Library) :
    (packageText package ++ importsText home imports).toList =
      unlines (headerLines package home imports) := by
  have himports : (String.join (imports.map fun lib => "import " ++ lib.path home ++ ";\n")).toList =
      unlines (imports.map (importLine home)) := by
    rw [String.toList_join, unlines, List.flatMap_map, List.flatMap_map]
    congr 1
    funext lib
    simp [importLine]
  unfold headerLines packageLines packageText importsText
  rw [unlines_append, unlines_append, String.toList_append, String.toList_append, himports]
  cases package <;> cases imports <;> simp [unlines]

/-- What the lines of a header have in common, also an empty one. -/
structure HeaderLine (line : List Char) : Prop where
  head : ∀ c, line.head? = some c → isBlank c = false
  last : ∀ c, line.getLast? = some c → isBlank c = false
  chars : ∀ c ∈ line, isWordChar c = true ∨ c ∈ ". ;".toList
  code : isClassLine line = false

theorem HeaderLine.empty : HeaderLine [] :=
  ⟨fun _ h => (by cases h), fun _ h => (by cases h), fun _ h => (by cases h), rfl⟩

/-- A character of joined parts is one of a part or of the separator. -/
theorem mem_of_mem_intercalate {c : Char} {separator : List Char} {parts : List (List Char)}
    (h : c ∈ separator.intercalate parts) : c ∈ separator ∨ ∃ part ∈ parts, c ∈ part := by
  induction parts with
  | nil => cases h
  | cons first rest ih =>
    cases rest with
    | nil => exact .inr ⟨first, List.mem_cons_self, by simpa using h⟩
    | cons next rest =>
      rw [List.intercalate_cons_cons, List.mem_append, List.mem_append] at h
      rcases h with (h | h) | h
      · exact .inr ⟨first, List.mem_cons_self, h⟩
      · exact .inl h
      · exact (ih h).imp_right fun ⟨part, hpart, hc⟩ => ⟨part, List.mem_cons_of_mem _ hpart, hc⟩

/-- A package has no characters but those of words, and dots. -/
theorem chars_of_isPackage {name : String} (h : isPackage name = true) :
    ∀ c ∈ name.toList, isWordChar c = true ∨ c = '.' := by
  intro c hc
  have hjoin : ['.'].intercalate (name.toList.splitOn '.') = name.toList :=
    List.intercalate_splitOn '.'
  rw [← hjoin] at hc
  rcases mem_of_mem_intercalate hc with hdot | ⟨part, hpart, hmem⟩
  · exact .inr (List.mem_singleton.1 hdot)
  · have hword := (Bool.and_eq_true_iff.1 (List.all_eq_true.1 h part hpart)).1
    cases part with
    | nil => cases hmem
    | cons d rest =>
      simp only [isWord, Bool.and_eq_true, List.all_eq_true] at hword
      rcases List.mem_cons.1 hmem with rfl | hmem
      · exact .inl (isWordChar_of_isWordStart hword.1)
      · exact .inl (hword.2 c hmem)

/-- Whether a line of a header can begin with the word. -/
def isHeaderWord (word : String) : Bool :=
  word.toList.head?.any (!isBlank ·) &&
    word.toList.all fun c => isWordChar c || ". ;".toList.contains c

/-- A keyword and a dotted name make a line of a header. -/
theorem HeaderLine.of_name {word name : String} (hword : isHeaderWord word = true)
    (hname : ∀ c ∈ name.toList, isWordChar c = true ∨ c = '.')
    (hcode : isClassLine (word ++ name ++ ";").toList = false) :
    HeaderLine (word ++ name ++ ";").toList := by
  have htext : (word ++ name ++ ";").toList = word.toList ++ (name.toList ++ [';']) := by simp
  obtain ⟨hhead, hchars⟩ := Bool.and_eq_true_iff.1 hword
  obtain ⟨first, hfirst, hblank⟩ := (Option.any_eq_true _ _).1 hhead
  refine ⟨fun c hc => ?_, fun c hc => ?_, fun c hc => ?_, hcode⟩
  · rw [htext, List.head?_append, hfirst] at hc
    cases hc
    simpa using hblank
  · rw [htext, ← List.append_assoc, List.getLast?_concat] at hc
    cases hc
    decide
  · rw [htext, List.mem_append, List.mem_append] at hc
    rcases hc with hc | hc | hc
    · simpa using List.all_eq_true.1 hchars c hc
    · rcases hname c hc with hchar | rfl
      · exact .inl hchar
      · exact .inr (by decide)
    · rw [List.mem_singleton.1 hc]
      exact .inr (by decide)

theorem headerLine_importLine {home : String} (hhome : isPackage home = true) (lib : Library) :
    HeaderLine (importLine home lib) := by
  have hname : lib.name.toList.all isWordChar = true := by cases lib <;> decide
  refine .of_name (by decide) (fun c hc => ?_) (by simp [isClassLine, List.isPrefixOf])
  unfold Library.path at hc
  split at hc
  · have hpath : "java.awt.image.BufferedImage".toList.all (fun c => isWordChar c || c = '.') = true :=
      by decide
    simpa using List.all_eq_true.1 hpath c hc
  · rw [String.toList_append, String.toList_append, List.mem_append, List.mem_append] at hc
    rcases hc with (hc | hc) | hc
    · exact chars_of_isPackage hhome c hc
    · exact .inr (List.mem_singleton.1 hc)
    · exact .inl (List.all_eq_true.1 hname c hc)

theorem headerLine_of_mem {package : Option String} {home : String} {imports : List Library}
    (hpackage : ∀ p, package = some p → isPackage p = true) (hhome : isPackage home = true) :
    ∀ line ∈ headerLines package home imports, HeaderLine line := by
  intro line hline
  unfold headerLines packageLines at hline
  rw [List.mem_append, List.mem_append] at hline
  rcases hline with hline | hline | hline
  · cases package with
    | none => cases hline
    | some p =>
      rcases List.mem_cons.1 hline with rfl | hline
      · refine .of_name (by decide) (chars_of_isPackage (hpackage p rfl)) ?_
        simp [isClassLine, List.isPrefixOf]
      · rw [List.mem_singleton.1 hline]
        exact .empty
  · obtain ⟨lib, -, rfl⟩ := List.mem_map.1 hline
    exact headerLine_importLine hhome lib
  · split at hline
    · cases hline
    · rw [List.mem_singleton.1 hline]
      exact .empty

/-- A line of a header has no mark that layout looks at, and ends as a line does. -/
theorem HeaderLine.isLine {line : List Char} (h : HeaderLine line) : IsLine line := by
  refine ⟨fun hmem => absurd (h.chars _ hmem) (by decide), fun hlast => ?_⟩
  exact absurd (h.last _ hlast) (by decide)

/-! ## Layout -/

theorem scan_eq_of_unmarked {line : List Char} (scan : LineScan) (hscan : scan.inString = false)
    (h : ∀ c ∈ line, c ≠ '"' ∧ c ≠ '\x7b' ∧ c ≠ '\x7d') :
    (line.foldl LineScan.step scan).opens = scan.opens ∧
      (line.foldl LineScan.step scan).closes = scan.closes := by
  induction line generalizing scan with
  | nil => exact ⟨rfl, rfl⟩
  | cons c rest ih =>
    obtain ⟨hquote, hopen, hclose⟩ := h c List.mem_cons_self
    have hrest : ∀ d ∈ rest, _ := fun d hd => h d (List.mem_cons_of_mem c hd)
    have hstep : (scan.step c).inString = false ∧ (scan.step c).opens = scan.opens ∧
        (scan.step c).closes = scan.closes := by
      unfold LineScan.step
      rw [hscan, if_neg Bool.false_ne_true, if_neg hquote, if_neg hopen, if_neg hclose]
      split
      · exact ⟨hscan, rfl, rfl⟩
      · exact ⟨rfl, rfl, rfl⟩
    obtain ⟨hopens, hcloses⟩ := ih (scan.step c) hstep.1 hrest
    exact ⟨hopens.trans hstep.2.1, hcloses.trans hstep.2.2⟩

/-- Where no brace is open, lines of a header are laid out as they are. -/
theorem layoutLines_header {header : List (List Char)} (h : ∀ line ∈ header, HeaderLine line)
    (rest : List (List Char)) :
    layoutLines 0 ((header ++ rest).map trim) = header ++ layoutLines 0 (rest.map trim) := by
  induction header with
  | nil => rfl
  | cons line header ih =>
    have hline := h line List.mem_cons_self
    have hrest := ih fun l hl => h l (List.mem_cons_of_mem line hl)
    have hmarks : ∀ c ∈ line, c ≠ '"' ∧ c ≠ '\x7b' ∧ c ≠ '\x7d' := by
      intro c hc
      refine ⟨?_, ?_, ?_⟩ <;> rintro rfl <;> exact absurd (hline.chars _ hc) (by decide)
    obtain ⟨hopens, hcloses⟩ := scan_eq_of_unmarked .start rfl hmarks
    rw [List.cons_append, List.map_cons, trim_eq_self hline.head hline.last, layoutLines]
    split
    · rename_i hempty
      rw [List.isEmpty_iff.1 hempty, hrest]
      rfl
    · have hindent : indentWidth * (0 - (LineScan.ofLine line).leading) = 0 := by
        rw [Nat.zero_sub, Nat.mul_zero]
      have hdepth : 0 + (LineScan.ofLine line).opens - (LineScan.ofLine line).closes = 0 := by
        rw [LineScan.ofLine, hopens, hcloses]
        rfl
      simp only [hindent, hdepth, hrest]
      rfl

theorem isLine_of_mem_layoutLines (depth : Nat) {ls : List (List Char)}
    (h : ∀ line ∈ ls, '\n' ∉ line) :
    ∀ line ∈ layoutLines depth (ls.map trim), IsLine line := by
  induction ls generalizing depth with
  | nil => exact fun line hline => (by cases hline)
  | cons first rest ih =>
    intro line hline
    have hrest (n : Nat) := ih n fun l hl => h l (List.mem_cons_of_mem first hl)
    rw [List.map_cons, layoutLines] at hline
    split at hline
    · rcases List.mem_cons.1 hline with rfl | hline
      · exact ⟨List.not_mem_nil, by decide⟩
      · exact hrest _ line hline
    · rename_i hne
      rcases List.mem_cons.1 hline with rfl | hline
      · obtain ⟨before, after, hfirst, -, -⟩ := exists_trim first
        refine ⟨fun hmem => ?_, fun hlast => ?_⟩
        · rcases List.mem_append.1 hmem with hmem | hmem
          · cases List.eq_of_mem_replicate hmem
          · refine h first List.mem_cons_self ?_
            rw [hfirst]
            exact List.mem_append_right before (List.mem_append_left after hmem)
        · rw [List.getLast?_append_of_ne_nil _ (by simpa using hne)] at hlast
          exact absurd (getLast?_trim first _ hlast) (by decide)
      · exact hrest _ line hline

theorem toList_layout (source : String) : (layout source).toList =
    unlines (layoutLines 0 ((lines source.toList).map trim)) := by
  simp [layout, unlines, String.toList_join, List.flatMap_map]

/-- The lines of a text that is laid out are its trimmed lines, indented. -/
theorem lines_layout (source : String) :
    lines (layout source).toList = layoutLines 0 ((lines source.toList).map trim) := by
  have hlaid := isLine_of_mem_layoutLines 0 (newline_notMem_lines source.toList)
  have hlines := lines_unlines_append hlaid []
  rw [List.append_nil] at hlines
  rw [toList_layout, hlines]
  exact List.append_nil _

/-! ## The lines of a unit -/

namespace SourceUnit

/-- The text of the class of a unit. -/
def classText (u : SourceUnit) : String :=
  "public class " ++ u.className ++ " \x7b\n" ++
    ("public static " ++ u.result.java ++ " " ++ u.method ++ methodText u.params u.body ++ "\x7d\n")

/-- A unit is the lines of its header and then its class. -/
theorem text_eq_header_append (u : SourceUnit) : u.text.toList =
    unlines (headerLines u.package u.libraryPackage u.imports) ++ u.classText.toList := by
  rw [← toList_header, ← String.toList_append]
  simp only [text, classText, String.append_assoc]

/-- The first line of the class of a unit. -/
def classLine (u : SourceUnit) : List Char :=
  ("public class " ++ u.className ++ " \x7b").toList

theorem isClassLine_classLine (u : SourceUnit) : isClassLine u.classLine = true := by
  rw [isClassLine, List.isPrefixOf_iff_prefix, classLine, String.append_assoc, String.toList_append]
  exact List.prefix_append _ _

theorem toList_classLine (u : SourceUnit) :
    u.classLine = 'p' :: ("ublic class ".toList ++ u.className.toList ++ [' ']) ++ ['\x7b'] := by
  simp [classLine]

theorem isLine_classLine {u : SourceUnit} (h : isName u.className = true) : IsLine u.classLine := by
  have hname : '\n' ∉ u.className.toList := by
    intro hmem
    rcases (chars_of_isName h).2 _ hmem with hword | hdollar
    · exact absurd hword (by decide)
    · exact absurd hdollar (by decide)
  rw [toList_classLine]
  refine ⟨?_, ?_⟩
  · simpa using hname
  · rw [List.getLast?_concat]
    decide

theorem trim_classLine (u : SourceUnit) : trim u.classLine = u.classLine := by
  rw [toList_classLine]
  refine trim_eq_self (fun c hc => ?_) fun c hc => ?_
  · cases hc
    decide
  · rw [List.getLast?_concat] at hc
    cases hc
    decide

/-- The lines of a unit, laid out or not: those of its header, then the first line of its class, and
then lines with which the class has the identifiers of its text. -/
theorem lines_unit {u : SourceUnit} (hname : isName u.className = true)
    (hpackage : ∀ p, u.package = some p → isPackage p = true)
    (hhome : isPackage u.libraryPackage = true) (pretty : Bool) :
    ∃ rest, lines (if pretty then layout u.text else u.text).toList =
        headerLines u.package u.libraryPackage u.imports ++ u.classLine :: rest ∧
      identifiers (u.classLine :: rest) = words (mask .code u.classText.toList) := by
  have hheader : ∀ line ∈ headerLines u.package u.libraryPackage u.imports, HeaderLine line :=
    headerLine_of_mem hpackage hhome
  have hlines : lines u.text.toList = headerLines u.package u.libraryPackage u.imports ++
      lines u.classText.toList := by
    rw [text_eq_header_append]
    exact lines_unlines_append (fun line hline => (hheader line hline).isLine) _
  obtain ⟨rest, hclass⟩ : ∃ rest, lines u.classText.toList = u.classLine :: rest := by
    have htext : u.classText.toList = u.classLine ++ '\n' :: ("public static " ++ u.result.java ++
        " " ++ u.method ++ methodText u.params u.body ++ "\x7d\n").toList := by
      simp [classText, classLine]
    rw [htext, lines_cons (isLine_classLine hname)]
    exact ⟨_, rfl⟩
  have hwords : identifiers (u.classLine :: rest) = words (mask .code u.classText.toList) := by
    rw [← hclass, words_mask_lines]
  cases pretty with
  | false => exact ⟨rest, by rw [← hclass, ← hlines]; rfl, hwords⟩
  | true =>
    -- laid out, the first line of the class is not indented
    obtain ⟨rest', hlaid⟩ : ∃ rest', layoutLines 0 ((u.classLine :: rest).map trim) =
        u.classLine :: rest' := by
      have hne : ¬u.classLine.isEmpty = true := by simp [toList_classLine]
      have hindent (leading : Nat) : indentWidth * (0 - leading) = 0 := by
        rw [Nat.zero_sub, Nat.mul_zero]
      rw [List.map_cons, trim_classLine, layoutLines, if_neg hne]
      simp only [hindent]
      exact ⟨_, rfl⟩
    refine ⟨rest', ?_, ?_⟩
    · rw [if_pos rfl, lines_layout, hlines, layoutLines_header hheader, hclass, hlaid]
    · rw [← hlaid, identifiers_layoutLines, hwords]

end SourceUnit

/-! ## Imports -/

/-- Of a header the import lines are read, and what follows it is read as the class. -/
theorem importLines_of_lines {package : Option String} {home source : String}
    {imports : List Library} {first : List Char} {rest : List (List Char)}
    (hheader : ∀ line ∈ headerLines package home imports, HeaderLine line)
    (hfirst : isClassLine first = true)
    (h : lines source.toList = headerLines package home imports ++ first :: rest) :
    importLines source = imports.map (importLine home) ∧ classLines source = first :: rest := by
  have hbefore : ∀ line ∈ headerLines package home imports, (!isClassLine line) = true := by
    intro line hline
    simp [(hheader line hline).code]
  unfold importLines classLines
  rw [h, List.takeWhile_append_of_pos hbefore, List.dropWhile_append_of_pos hbefore,
    List.takeWhile_cons, List.dropWhile_cons, hfirst]
  refine ⟨?_, rfl⟩
  have himport : ∀ line ∈ imports.map (importLine home),
      "import ".toList.isPrefixOf line = true := by
    intro line hline
    obtain ⟨lib, -, rfl⟩ := List.mem_map.1 hline
    rw [List.isPrefixOf_iff_prefix, importLine, String.append_assoc, String.toList_append]
    exact List.prefix_append _ _
  unfold headerLines
  simp only [Bool.not_true, Bool.false_eq_true, if_false, List.append_nil]
  rw [List.filter_append, List.filter_append, List.filter_eq_self.2 himport]
  cases package <;> cases imports <;> simp [packageLines, List.isPrefixOf]

/-- The path of a class ends with its name. -/
theorem Library.exists_path (home : String) (lib : Library) :
    ∃ package : String, lib.path home = package ++ "." ++ lib.name := by
  cases lib with
  | raster =>
    have hraster : "java.awt.image.BufferedImage" = "java.awt.image" ++ "." ++ "BufferedImage" := by
      decide
    exact ⟨"java.awt.image", hraster⟩
  | console | pixels | images | files => exact ⟨home, rfl⟩

/-- An import line tells its class. -/
theorem importLine_injective (home : String) {lib lib' : Library}
    (h : importLine home lib = importLine home lib') : lib = lib' := by
  obtain ⟨package, hpath⟩ := lib.exists_path home
  obtain ⟨package', hpath'⟩ := lib'.exists_path home
  have hname : ∀ lib : Library, ∀ c ∈ lib.name.toList.reverse, decide (c ≠ '.') = true :=
    fun lib => List.all_eq_true.1 (by cases lib <;> decide)
  -- from the end of the line up to the first dot stands the name
  have hlast (lib : Library) (package : String) (hpath : lib.path home = package ++ "." ++ lib.name) :
      ((importLine home lib).reverse.drop 1).takeWhile (· ≠ '.') = lib.name.toList.reverse := by
    have hreverse : (importLine home lib).reverse.drop 1 = lib.name.toList.reverse ++
        '.' :: (package.toList.reverse ++ "import ".toList.reverse) := by
      simp [importLine, hpath]
    rw [hreverse, List.takeWhile_append_of_pos (hname lib)]
    simp
  have hnames : lib.name.toList.reverse = lib'.name.toList.reverse := by
    rw [← hlast lib package hpath, ← hlast lib' package' hpath', h]
  revert hnames
  cases lib <;> cases lib' <;> decide

end PixelJava.Java
