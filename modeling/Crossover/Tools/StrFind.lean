import Crossover.Tools.Rtti

/-!
# StrFind — the strings of the image and where they are used

`strfind.py` finds each text it is given, walks to the ends of the printable run around it, keeps
the run if a NUL ends it, and prints it with its references unless an earlier text has brought it
up already.
-/

namespace Crossover
namespace Tools
namespace StrFind

open ConsoleTable (Image)
open Rtti (Mapped dw slice dwordsEqual)
open Search (occurrences walkBack walkOn IsRun)

/-! ## `strfind.py` -/

/-- `0x20 <= b < 0x7F`. -/
def printable (b : UInt8) : Bool :=
  0x20 ≤ b ∧ b < 0x7F

/-- `find_strings`; the needle is `sub.encode()`. -/
def findStrings (image : Image) (needle : List UInt8) : List (Int × List Char) :=
  (occurrences needle image.data).filterMap fun i =>
    let s := walkBack printable image.data i
    let e := walkOn printable image.data i
    if e < image.data.length ∧ image.data[e]? = some 0 then
      some ((image.base : Int) + s, slice image.data s e)
    else none

/-- `xrefs`. -/
def xrefs : Image → Int → Option (List Int) :=
  dwordsEqual

/-- A string as it is printed: the number of its references, and the first twelve of them. -/
structure Line where
  va : Int
  text : List Char
  count : Nat
  refs : List Int
  deriving DecidableEq, Repr

/-- `refs={len(refs)}` and `refs[:12]`. -/
def printed (va : Int) (text : List Char) (refs : List Int) : Line where
  va := va
  text := text
  count := refs.length
  refs := refs.take 12

/-- The loop over the strings of one text; `seen` grows with it. -/
def printStrings (image : Image) :
    List Int → List (Int × List Char) → Option (List Int × List Line)
  | seen, [] => some (seen, [])
  | seen, (va, text) :: rest =>
      if va ∈ seen then printStrings image seen rest
      else
        match xrefs image va, printStrings image (va :: seen) rest with
        | some refs, some (seen, lines) => some (seen, printed va text refs :: lines)
        | _, _ => none

/-- The loop over the texts, one section for each. -/
def report (image : Image) : List Int → List (List UInt8) → Option (List (List Line))
  | _, [] => some []
  | seen, needle :: rest =>
      match printStrings image seen (findStrings image needle) with
      | none => none
      | some (seen, lines) => (report image seen rest).map (lines :: ·)

/-! ## The strings -/

/-- A NUL-terminated run of printable bytes. -/
structure IsString (image : Image) (s e : Nat) : Prop where
  run : IsRun printable image.data s e
  terminated : image.data[e]? = some 0

/-- The text stands within these bytes. -/
def Holds (image : Image) (needle : List UInt8) (s e : Nat) : Prop :=
  ∃ i, s ≤ i ∧ i + needle.length ≤ e ∧ Search.At needle image.data i

section Strings

variable {image : Image} {needle : List UInt8} {s e s' e' : Nat}

/-- A printable text stays within the run it stands in. -/
theorem le_walkOn (hprintable : needle.all printable = true) {i : Nat}
    (hat : Search.At needle image.data i) :
    i + needle.length ≤ walkOn printable image.data i := by
  rcases hat.2 with ⟨rest, hrest⟩
  have hbegins : needle <+: (image.data.drop i).takeWhile printable := by
    rw [← hrest, List.takeWhile_append_of_pos (by simpa using hprintable)]
    exact List.prefix_append _ _
  rw [walkOn]
  exact Nat.add_le_add_left hbegins.length_le i

/-- Strings that start at the same place are the same. -/
theorem IsString.end_unique (h : IsString image s e) (h' : IsString image s e') : e = e' :=
  (h.run.unique h'.run ⟨le_rfl, h.run.ordered⟩ ⟨le_rfl, h'.run.ordered⟩).2

/-- What `find_strings` finds. -/
theorem mem_findStrings (hprintable : needle.all printable = true) {va : Int} {text : List Char} :
    (va, text) ∈ findStrings image needle ↔ ∃ s e, IsString image s e ∧ Holds image needle s e ∧
      va = image.base + s ∧ text = slice image.data s e := by
  rw [findStrings, List.mem_filterMap]
  constructor
  · rintro ⟨i, hi, hfound⟩
    have hat := Search.mem_occurrences.1 hi
    simp only at hfound
    split at hfound
    · rename_i hend
      obtain ⟨rfl, rfl⟩ := Prod.mk.inj (Option.some.inj hfound)
      exact ⟨_, _, ⟨Search.isRun_around hat.1, hend.2⟩,
        ⟨i, Search.walkBack_le _ _ _, le_walkOn hprintable hat, hat⟩, rfl, rfl⟩
    · cases hfound
  · rintro ⟨s, e, hstring, ⟨i, hs, he, hat⟩, rfl, rfl⟩
    have hon := le_walkOn hprintable hat
    obtain ⟨rfl, rfl⟩ := hstring.run.unique (Search.isRun_around hat.1) (i := i)
      ⟨hs, by omega⟩ ⟨Search.walkBack_le _ _ _, by omega⟩
    have hend := (List.getElem?_eq_some_iff.1 hstring.terminated).1
    exact ⟨i, Search.mem_occurrences.2 hat, if_pos ⟨hend, hstring.terminated⟩⟩

/-- They are found in the order of their addresses. -/
theorem pairwise_findStrings : (findStrings image needle).Pairwise fun x y => x.1 ≤ y.1 := by
  rw [findStrings, List.pairwise_filterMap]
  refine (@Search.pairwise_occurrences _ _ needle image.data).imp ?_
  intro i j hij x hx y hy
  have hmono := Search.walkBack_mono printable image.data hij.le
  simp only at hx hy
  split at hx
  · split at hy
    · cases hx
      cases hy
      simp only
      omega
    · cases hy
  · cases hx

end Strings

/-! ## What is printed -/

/-- The line shows these references. -/
def Line.Shows (line : Line) (refs : List Int) : Prop :=
  line.count = refs.length ∧ line.refs = refs.take 12

theorem Line.Shows.eq_printed {line : Line} {refs : List Int} (h : line.Shows refs) :
    line = printed line.va line.text refs := by
  rcases line with ⟨va, text, count, shown⟩
  obtain ⟨rfl, rfl⟩ := h
  rfl

section Printed

variable {image : Image} {seen seen' : List Int} {strings : List (Int × List Char)}
  {lines : List Line}

theorem printStrings_cons {va : Int} {text : List Char}
    (h : printStrings image seen ((va, text) :: strings) = some (seen', lines)) :
    (va ∈ seen ∧ printStrings image seen strings = some (seen', lines)) ∨
      (va ∉ seen ∧ ∃ refs rest, xrefs image va = some refs ∧
        printStrings image (va :: seen) strings = some (seen', rest) ∧
        lines = printed va text refs :: rest) := by
  rw [printStrings] at h
  split at h
  · exact Or.inl ⟨‹_›, h⟩
  · refine Or.inr ⟨‹_›, ?_⟩
    split at h
    · rename_i refs seen'' rest hrefs hrest
      obtain ⟨rfl, rfl⟩ := Prod.mk.inj (Option.some.inj h)
      exact ⟨refs, rest, hrefs, hrest, rfl⟩
    · cases h

theorem mem_seen (h : printStrings image seen strings = some (seen', lines)) {va : Int} :
    va ∈ seen' ↔ va ∈ seen ∨ va ∈ strings.map Prod.fst := by
  induction strings generalizing seen lines with
  | nil =>
    obtain ⟨rfl, _⟩ := Prod.mk.inj (Option.some.inj h)
    simp
  | cons first rest ih =>
    rcases first with ⟨va', text⟩
    rcases printStrings_cons h with ⟨hseen, hrest⟩ | ⟨_, _, _, _, hrest, _⟩
    · rw [ih hrest, List.map_cons, List.mem_cons]
      constructor
      · rintro (hold | hmem)
        · exact Or.inl hold
        · exact Or.inr (Or.inr hmem)
      · rintro (hold | rfl | hmem)
        · exact Or.inl hold
        · exact Or.inl hseen
        · exact Or.inr hmem
    · rw [ih hrest, List.map_cons, List.mem_cons, List.mem_cons, or_assoc]
      exact or_left_comm

/-- A string is printed, with its references, if no text has brought its address up before. -/
theorem mem_lines (h : printStrings image seen strings = some (seen', lines))
    (hone : ∀ x ∈ strings, ∀ y ∈ strings, x.1 = y.1 → x = y) {line : Line} :
    line ∈ lines ↔ (line.va, line.text) ∈ strings ∧ line.va ∉ seen ∧
      ∃ refs, xrefs image line.va = some refs ∧ line.Shows refs := by
  induction strings generalizing seen lines with
  | nil =>
    obtain ⟨_, rfl⟩ := Prod.mk.inj (Option.some.inj h)
    simp
  | cons first rest ih =>
    rcases first with ⟨va, text⟩
    have honeRest : ∀ x ∈ rest, ∀ y ∈ rest, x.1 = y.1 → x = y :=
      fun x hx y hy => hone x (List.mem_cons_of_mem _ hx) y (List.mem_cons_of_mem _ hy)
    rcases printStrings_cons h with ⟨hseen, hrest⟩ | ⟨hnew, refs, lines', hrefs, hrest, rfl⟩
    · rw [ih hrest honeRest, List.mem_cons]
      constructor
      · rintro ⟨hmem, hunseen, hxrefs⟩
        exact ⟨Or.inr hmem, hunseen, hxrefs⟩
      · rintro ⟨hfirst | hmem, hunseen, hxrefs⟩
        · obtain ⟨rfl, rfl⟩ := Prod.mk.inj hfirst
          exact absurd hseen hunseen
        · exact ⟨hmem, hunseen, hxrefs⟩
    · rw [List.mem_cons, ih hrest honeRest, List.mem_cons, List.mem_cons, not_or]
      constructor
      · rintro (rfl | ⟨hmem, ⟨_, hunseen⟩, hxrefs⟩)
        · exact ⟨Or.inl rfl, hnew, refs, hrefs, rfl, rfl⟩
        · exact ⟨Or.inr hmem, hunseen, hxrefs⟩
      · rintro ⟨hmem, hunseen, shown, hxrefs, hshows⟩
        by_cases heq : line.va = va
        · -- The same address has the same text.
          left
          have hsame : (line.va, line.text) = (va, text) :=
            hone _ (List.mem_cons.2 hmem) _ List.mem_cons_self heq
          obtain ⟨hva, htext⟩ := Prod.mk.inj hsame
          rw [hva] at hxrefs
          obtain rfl := Option.some.inj (hxrefs.symm.trans hrefs)
          rw [hshows.eq_printed, hva, htext]
        · rcases hmem with hfirst | hmem
          · exact absurd (congrArg Prod.fst hfirst) heq
          · exact Or.inr ⟨hmem, ⟨heq, hunseen⟩, shown, hxrefs, hshows⟩

theorem va_of_mem_lines (h : printStrings image seen strings = some (seen', lines)) {line : Line}
    (hline : line ∈ lines) : line.va ∈ strings.map Prod.fst ∧ line.va ∉ seen := by
  induction strings generalizing seen lines with
  | nil =>
    obtain ⟨_, rfl⟩ := Prod.mk.inj (Option.some.inj h)
    cases hline
  | cons first rest ih =>
    rcases first with ⟨va, text⟩
    rcases printStrings_cons h with ⟨_, hrest⟩ | ⟨hnew, refs, lines', _, hrest, rfl⟩
    · have hmem := ih hrest hline
      exact ⟨List.mem_cons_of_mem _ hmem.1, hmem.2⟩
    · rcases List.mem_cons.1 hline with rfl | hline
      · exact ⟨List.mem_cons_self, hnew⟩
      · have hmem := ih hrest hline
        exact ⟨List.mem_cons_of_mem _ hmem.1, fun hseen => hmem.2 (List.mem_cons_of_mem _ hseen)⟩

/-- The lines of a section are in the order of their addresses. -/
theorem pairwise_lines (h : printStrings image seen strings = some (seen', lines))
    (horder : strings.Pairwise fun x y => x.1 ≤ y.1) :
    lines.Pairwise fun line line' => line.va < line'.va := by
  induction strings generalizing seen lines with
  | nil =>
    obtain ⟨_, rfl⟩ := Prod.mk.inj (Option.some.inj h)
    exact List.Pairwise.nil
  | cons first rest ih =>
    rcases first with ⟨va, text⟩
    rcases List.pairwise_cons.1 horder with ⟨hfirst, horder⟩
    rcases printStrings_cons h with ⟨_, hrest⟩ | ⟨_, refs, lines', _, hrest, rfl⟩
    · exact ih hrest horder
    · refine List.Pairwise.cons ?_ (ih hrest horder)
      intro line hline
      rcases va_of_mem_lines hrest hline with ⟨hmem, hunseen⟩
      rcases List.mem_map.1 hmem with ⟨x, hx, heq⟩
      have hle : va ≤ line.va := heq ▸ hfirst x hx
      have hne : line.va ≠ va := fun heq => hunseen (heq ▸ List.mem_cons_self)
      exact lt_of_le_of_ne hle (Ne.symm hne)

theorem printStrings_isSome (h : ∀ x ∈ strings, (xrefs image x.1).isSome = true)
    (seen : List Int) : (printStrings image seen strings).isSome = true := by
  induction strings generalizing seen with
  | nil => rfl
  | cons first rest ih =>
    rcases first with ⟨va, text⟩
    have hrest := ih fun x hx => h x (List.mem_cons_of_mem _ hx)
    rw [printStrings]
    split
    · exact hrest seen
    · rcases Option.isSome_iff_exists.1 (h _ List.mem_cons_self) with ⟨refs, hrefs⟩
      rcases Option.isSome_iff_exists.1 (hrest (va :: seen)) with ⟨printed, hprinted⟩
      simp only at hrefs
      rw [hrefs, hprinted]
      rfl

end Printed

/-! ## The report -/

/-- What a line of the `k`-th section is about: a string that holds the `k`-th text and none of the
earlier ones, with the number of the places of the image where its address stands, and the first
twelve of them. -/
structure Reports (image : Image) (needles : List (List UInt8)) (k : Nat) (line : Line) : Prop where
  string : ∃ s e, IsString image s e ∧ line.va = image.base + s ∧
    line.text = slice image.data s e ∧ (∃ needle, needles[k]? = some needle ∧
      Holds image needle s e) ∧
    ∀ j, j < k → ∀ needle, needles[j]? = some needle → ¬ Holds image needle s e
  refs : ∃ refs : List Int, (∀ r, r ∈ refs ↔ image.base ≤ r ∧ dw image r = some line.va) ∧
    refs.Pairwise (· < ·) ∧ line.Shows refs

section Report

variable {image : Image} {needles : List (List UInt8)} {sections : List (List Line)}
  {seen : List Int}

theorem report_cons {needle : List UInt8} (h : report image seen (needle :: needles) =
    some sections) : ∃ seen' lines rest,
      printStrings image seen (findStrings image needle) = some (seen', lines) ∧
        report image seen' needles = some rest ∧ sections = lines :: rest := by
  rw [report] at h
  split at h
  · cases h
  · rename_i seen' lines hlines
    rcases Option.map_eq_some_iff.1 h with ⟨rest, hrest, rfl⟩
    exact ⟨seen', lines, rest, hlines, hrest, rfl⟩

theorem findStrings_one {needle : List UInt8} (hprintable : needle.all printable = true) :
    ∀ x ∈ findStrings image needle, ∀ y ∈ findStrings image needle, x.1 = y.1 → x = y := by
  rintro ⟨va, text⟩ hx ⟨va', text'⟩ hy heq
  rcases (mem_findStrings hprintable).1 hx with ⟨s, e, hstring, _, rfl, rfl⟩
  rcases (mem_findStrings hprintable).1 hy with ⟨s', e', hstring', _, hva, rfl⟩
  obtain rfl : s = s' := by
    simp only at heq
    omega
  rw [hstring.end_unique hstring', hva]

/-- The addresses a text brings up. -/
theorem mem_addresses {needle : List UInt8} (hprintable : needle.all printable = true)
    {s e : Nat} (hstring : IsString image s e) :
    ((image.base : Int) + s) ∈ (findStrings image needle).map Prod.fst ↔
      Holds image needle s e := by
  rw [List.mem_map]
  constructor
  · rintro ⟨⟨va, text⟩, hx, hva⟩
    rcases (mem_findStrings hprintable).1 hx with ⟨s', e', hstring', hholds, rfl, _⟩
    obtain rfl : s' = s := by
      simp only at hva
      omega
    rwa [hstring.end_unique hstring']
  · intro hholds
    exact ⟨_, (mem_findStrings hprintable).2 ⟨s, e, hstring, hholds, rfl, rfl⟩, rfl⟩

theorem mem_report (hprintable : ∀ needle ∈ needles, needle.all printable = true)
    (h : report image seen needles = some sections) {k : Nat} {line : Line} :
    (∃ lines, sections[k]? = some lines ∧ line ∈ lines) ↔
      line.va ∉ seen ∧ (∃ refs, xrefs image line.va = some refs ∧ line.Shows refs) ∧
        ∃ s e, IsString image s e ∧ line.va = image.base + s ∧
          line.text = slice image.data s e ∧ (∃ needle, needles[k]? = some needle ∧
            Holds image needle s e) ∧
          ∀ j, j < k → ∀ needle, needles[j]? = some needle → ¬ Holds image needle s e := by
  induction needles generalizing seen sections k with
  | nil =>
    cases h
    simp
  | cons needle rest ih =>
    rcases report_cons h with ⟨seen', lines, sections', hlines, hrest, rfl⟩
    have hneedle := hprintable needle List.mem_cons_self
    cases k with
    | zero =>
      simp only [List.getElem?_cons_zero, Option.some.injEq, exists_eq_left',
        Nat.not_lt_zero, false_implies, implies_true, and_true]
      rw [mem_lines hlines (findStrings_one hneedle), mem_findStrings hneedle]
      constructor
      · rintro ⟨⟨s, e, hstring, hholds, hva, htext⟩, hunseen, hrefs⟩
        exact ⟨hunseen, hrefs, s, e, hstring, hva, htext, hholds⟩
      · rintro ⟨hunseen, hrefs, s, e, hstring, hva, htext, hholds⟩
        exact ⟨⟨s, e, hstring, hholds, hva, htext⟩, hunseen, hrefs⟩
    | succ k =>
      simp only [List.getElem?_cons_succ]
      rw [ih (fun needle hmem => hprintable needle (List.mem_cons_of_mem _ hmem)) hrest,
        mem_seen hlines, not_or]
      constructor
      · rintro ⟨⟨hunseen, hother⟩, hrefs, s, e, hstring, hva, htext, hholds, hearlier⟩
        refine ⟨hunseen, hrefs, s, e, hstring, hva, htext, hholds, ?_⟩
        intro j hj needle' hget hholds'
        cases j with
        | zero =>
          obtain rfl : needle = needle' := Option.some.inj hget
          exact hother (hva ▸ (mem_addresses hneedle hstring).2 hholds')
        | succ j => exact hearlier j (Nat.lt_of_succ_lt_succ hj) needle' hget hholds'
      · rintro ⟨hunseen, hrefs, s, e, hstring, hva, htext, hholds, hearlier⟩
        refine ⟨⟨hunseen, ?_⟩, hrefs, s, e, hstring, hva, htext, hholds, ?_⟩
        · rw [hva, mem_addresses hneedle hstring]
          exact hearlier 0 (Nat.succ_pos k) needle rfl
        · exact fun j hj needle' hget => hearlier (j + 1) (Nat.succ_lt_succ hj) needle' hget

theorem report_isSome (h : Mapped image)
    (hprintable : ∀ needle ∈ needles, needle.all printable = true) (seen : List Int) :
    (report image seen needles).isSome = true := by
  induction needles generalizing seen with
  | nil => rfl
  | cons needle rest ih =>
    have hprinted : (printStrings image seen (findStrings image needle)).isSome = true := by
      refine printStrings_isSome ?_ seen
      rintro ⟨va, text⟩ hx
      rcases (mem_findStrings (hprintable needle List.mem_cons_self)).1 hx with
        ⟨s, e, hstring, _, rfl, _⟩
      have hwithin := hstring.run.within
      have hordered := hstring.run.ordered
      rcases h with ⟨hbase, htop⟩
      have hend := (List.getElem?_eq_some_iff.1 hstring.terminated).1
      exact Rtti.dwordsEqual_isSome.2 (by omega)
    rcases Option.isSome_iff_exists.1 hprinted with ⟨⟨seen', lines⟩, hlines⟩
    rw [report, hlines]
    simp only [Option.isSome_map]
    exact ih (fun needle hmem => hprintable needle (List.mem_cons_of_mem _ hmem)) seen'

theorem pairwise_report (h : report image seen needles = some sections) {lines : List Line}
    (hlines : lines ∈ sections) : lines.Pairwise fun line line' => line.va < line'.va := by
  induction needles generalizing seen sections with
  | nil =>
    cases h
    cases hlines
  | cons needle rest ih =>
    rcases report_cons h with ⟨seen', first, sections', hfirst, hrest, rfl⟩
    rcases List.mem_cons.1 hlines with rfl | hlines
    · exact pairwise_lines hfirst pairwise_findStrings
    · exact ih hrest hlines

theorem length_report (h : report image seen needles = some sections) :
    sections.length = needles.length := by
  induction needles generalizing seen sections with
  | nil =>
    cases h
    rfl
  | cons needle rest ih =>
    rcases report_cons h with ⟨seen', first, sections', _, hrest, rfl⟩
    rw [List.length_cons, List.length_cons, ih hrest]

end Report

/-- The strings of a mapped image.  For printable texts there is one section each; the section of a
text has exactly the NUL-terminated strings that hold it and none of the earlier texts, each once,
in the order of their addresses, with the number of the places where such an address stands and the
first twelve of them. -/
theorem report_exact (image : Image) (h : Mapped image) (needles : List (List UInt8))
    (hprintable : ∀ needle ∈ needles, needle.all printable = true) :
    ∃ sections, report image [] needles = some sections ∧ sections.length = needles.length ∧
      (∀ lines ∈ sections, lines.Pairwise fun line line' => line.va < line'.va) ∧
      ∀ k line, (∃ lines, sections[k]? = some lines ∧ line ∈ lines) ↔
        Reports image needles k line := by
  rcases Option.isSome_iff_exists.1 (report_isSome h hprintable []) with ⟨sections, hsections⟩
  refine ⟨sections, hsections, length_report hsections,
    fun lines hlines => pairwise_report hsections hlines, fun k line => ?_⟩
  rw [mem_report hprintable hsections]
  constructor
  · rintro ⟨_, ⟨refs, hrefs, hshows⟩, hstring⟩
    exact ⟨hstring, refs, fun r => Rtti.mem_dwordsEqual hrefs, Rtti.pairwise_dwordsEqual hrefs,
      hshows⟩
  · rintro ⟨hstring, refs, hrefs, hsorted, hshows⟩
    refine ⟨List.not_mem_nil, ⟨refs, ?_, hshows⟩, hstring⟩
    have hpacked : (xrefs image line.va).isSome = true := by
      rcases hstring with ⟨s, e, hstring, hva, _⟩
      have hordered := hstring.run.ordered
      have hend := (List.getElem?_eq_some_iff.1 hstring.terminated).1
      rcases h with ⟨hbase, htop⟩
      exact Rtti.dwordsEqual_isSome.2 (by omega)
    rcases Option.isSome_iff_exists.1 hpacked with ⟨found, hfound⟩
    have hsame : found = refs :=
      (Rtti.pairwise_dwordsEqual hfound).eq_of_mem_iff hsorted fun r =>
        (Rtti.mem_dwordsEqual hfound).trans (hrefs r).symm
    rw [hfound, hsame]

/-- Both texts stand in the one name of the sample; it is printed for the first of them. -/
theorem report_exact_sample : ∃ sections,
    report Rtti.sampleImage [] [[0x41, 0x56], [0x58]] = some sections ∧ sections.length = 2 ∧
      ∀ lines, sections[1]? = some lines → ∀ line ∈ lines, line.va ≠ 0x400008 := by
  rcases report_exact Rtti.sampleImage ⟨by decide, by decide⟩ [[0x41, 0x56], [0x58]]
    (by decide) with ⟨sections, hsections, hlength, _, hreports⟩
  refine ⟨sections, hsections, hlength, ?_⟩
  intro lines hlines line hline hva
  have hreport := (hreports 1 line).1 ⟨lines, hlines, hline⟩
  rcases hreport.string with ⟨s, e, hstring, hs, _, _, hearlier⟩
  have hname : IsString Rtti.sampleImage 8 15 :=
    ⟨@Search.isRun_around _ printable _ 10 (by decide), by decide⟩
  obtain rfl : s = 8 := by
    have hbase : Rtti.sampleImage.base = 0x400000 := rfl
    omega
  obtain rfl := hname.end_unique hstring
  exact hearlier 0 Nat.zero_lt_one [0x41, 0x56] rfl ⟨10, by decide, by decide, by decide⟩

/-- Thirteen references, of which the last one is counted and not listed. -/
example :
    report
        { base := 0x400000
          data := [0x61, 0x00] ++ (List.replicate 13 [0x00, 0x00, 0x40, 0x00]).flatten }
        [] [[0x61]] =
      some [[{ va := 0x400000
               text := ['a']
               count := 13
               refs := (List.range 12).map fun i => 0x400002 + 4 * (i : Int) }]] := by
  decide +kernel

end StrFind
end Tools
end Crossover
