import Mathlib.Algebra.Order.Ring.Int
import Mathlib.Data.List.Sort
import Crossover.Lib.Search
import Crossover.Tools.ConsoleTable

/-!
# Rtti — class names and vtables

`rtti.py` walks from the type descriptors to their object locators and from there to the vtables,
its `vt` command the other way round, and `decode-factory.py` makes a dictionary of the same three
hops.  Addresses are Python's integers: they may lie in front of the image, where an offset is
negative and counts from the end.
-/

namespace Crossover
namespace Tools
namespace Rtti

open ConsoleTable (Image)
open Search (occurrences collect)

/-! ## Dwords -/

/-- `struct.pack("<I", v)`, which raises for what is no unsigned dword. -/
def pack (v : Int) : Option (List UInt8) :=
  if 0 ≤ v ∧ v < 2 ^ 32 then
    some [UInt8.ofNat v.toNat, UInt8.ofNat (v.toNat / 2 ^ 8), UInt8.ofNat (v.toNat / 2 ^ 16),
      UInt8.ofNat (v.toNat / 2 ^ 24)]
  else none

def dword (b₀ b₁ b₂ b₃ : UInt8) : Nat :=
  b₀.toNat + 2 ^ 8 * b₁.toNat + 2 ^ 16 * b₂.toNat + 2 ^ 24 * b₃.toNat

/-- `struct.unpack_from("<I", data, off)[0]`, which raises where there are no four bytes. -/
def unpackFrom (data : List UInt8) (off : Int) : Option Int :=
  let off := if off < 0 then off + data.length else off
  if off < 0 then none
  else
    match data.drop off.toNat with
    | b₀ :: b₁ :: b₂ :: b₃ :: _ => some (dword b₀ b₁ b₂ b₃)
    | _ => none

def dw (image : Image) (va : Int) : Option Int :=
  unpackFrom image.data (va - image.base)

/-- `dwords_equal`, the loop of `col_for` and `vtables_for` too. -/
def dwordsEqual (image : Image) (v : Int) : Option (List Int) :=
  (pack v).map fun needle =>
    (occurrences needle image.data).map fun i : Nat => (image.base : Int) + i

/-! ## Names -/

/-- `bytes.decode("ascii", "replace")`, byte by byte. -/
def decodeAscii (b : UInt8) : Char :=
  if b < 0x80 then Char.ofNat b.toNat else '\uFFFD'

/-- The offset a slice or a search starts at: a negative one counts from the end. -/
def start (data : List UInt8) (o : Int) : Nat :=
  if o < 0 then (o + data.length).toNat else o.toNat

/-- `DATA[o:e].decode("ascii", "replace")`. -/
def slice (data : List UInt8) (o e : Nat) : List Char :=
  ((data.take e).drop o).map decodeAscii

/-- `cstr`, with its `maxlen`. -/
def cstr (image : Image) (va : Int) : List Char :=
  let o := start image.data (va - image.base)
  let e :=
    match Search.find [0] image.data o with
    | some e => e
    -- `find` answers -1, and the slice stops in front of the last byte.
    | none => image.data.length - 1
  (slice image.data o e).take 200

/-- `.?AV` -/
def marker : List UInt8 :=
  [0x2E, 0x3F, 0x41, 0x56]

def typeDescriptors (image : Image) : List (Int × List Char) :=
  (occurrences marker image.data).map fun i : Nat =>
    ((image.base : Int) + i - 8, cstr image (image.base + i))

/-- `str.lower`, as far as a name can tell: names are ASCII but for U+FFFD, and of the characters
that are neither, the Kelvin sign U+212A is the only one it takes there. -/
def lower (s : List Char) : List Char :=
  s.map fun c => if c = Char.ofNat 0x212A then 'k' else c.toLower

/-- `sub.lower() in name.lower()`. -/
def contains (sub name : List Char) : Bool :=
  (Search.find (lower sub) (lower name) 0).isSome

/-! ## `rtti.py` -/

/-- What `col_for` asks of a locator; an exception counts as no. -/
def validated (image : Image) (col : Int) : Bool :=
  dw image col = some 0 ∧ (dw image (col + 0x10)).any fun v => (image.base : Int) < v

def colFor (image : Image) (td : Int) : Option (List Int) :=
  (dwordsEqual image td).map fun refs => (refs.map (· - 0x0C)).filter (validated image)

def vtablesFor (image : Image) (col : Int) : Option (List Int) :=
  (dwordsEqual image col).map fun refs => refs.map (· + 4)

/-- A line that `by_name` prints. -/
structure Row where
  name : List Char
  td : Int
  col : Int
  vtable : Int
  deriving DecidableEq, Repr

/-- `by_name`; it ends early if it cannot pack an address. -/
def byName (image : Image) (sub : List Char) : Option (List Row) :=
  collect
    (fun descriptor : Int × List Char =>
      if !contains sub descriptor.2 then some []
      else
        (colFor image descriptor.1).bind <| collect fun col =>
          (vtablesFor image col).map fun vtables =>
            vtables.map fun vtable => ⟨descriptor.2, descriptor.1, col, vtable⟩)
    (typeDescriptors image)

/-- The `vt` command. -/
def vt (image : Image) (vtable : Int) : Option (List Char) := do
  let col ← dw image (vtable - 4)
  let td ← dw image (col + 0x0C)
  return cstr image (td + 8)

/-! ## `decode-factory.py` -/

/-- `dict.setdefault`. -/
def setdefault (names : List (Int × List Char)) (key : Int) (name : List Char) :
    List (Int × List Char) :=
  if (names.lookup key).isSome then names else names ++ [(key, name)]

/-- The entries one type descriptor asks for, in order. -/
def factoryEntries (image : Image) (i : Nat) : Option (List (Int × List Char)) :=
  match Search.find [0] image.data i with
  | none => some []
  | some e =>
      if e - i > 120 then some []
      else
        let raw := slice image.data i e
        (dwordsEqual image ((image.base : Int) + i - 8)).bind <| collect fun ref =>
          let col := ref - 12
          let o := col - image.base
          if o < 0 ∨ o + 4 > image.data.length then some []
          else if unpackFrom image.data o ≠ some 0 then some []
          else (dwordsEqual image col).map fun refs => refs.map fun r => (r + 4, raw)

/-- `vt_to_name`. -/
def vtToName (image : Image) : Option (List (Int × List Char)) :=
  (collect (factoryEntries image) (occurrences marker image.data)).map fun entries =>
    entries.foldl (fun names entry => setdefault names entry.1 entry.2) []

/-! ## Packing and unpacking -/

theorem dword_ofNat {n : Nat} (h : n < 2 ^ 32) :
    dword (UInt8.ofNat n) (UInt8.ofNat (n / 2 ^ 8)) (UInt8.ofNat (n / 2 ^ 16))
      (UInt8.ofNat (n / 2 ^ 24)) = n := by
  simp only [dword, UInt8.toNat_ofNat']
  omega

theorem ofNat_dword (b₀ b₁ b₂ b₃ : UInt8) :
    UInt8.ofNat (dword b₀ b₁ b₂ b₃) = b₀ ∧ UInt8.ofNat (dword b₀ b₁ b₂ b₃ / 2 ^ 8) = b₁ ∧
      UInt8.ofNat (dword b₀ b₁ b₂ b₃ / 2 ^ 16) = b₂ ∧
      UInt8.ofNat (dword b₀ b₁ b₂ b₃ / 2 ^ 24) = b₃ := by
  have h₀ := b₀.toNat_lt
  have h₁ := b₁.toNat_lt
  have h₂ := b₂.toNat_lt
  have h₃ := b₃.toNat_lt
  simp only [← UInt8.toNat_inj, UInt8.toNat_ofNat', dword]
  omega

theorem pack_isSome {v : Int} : (pack v).isSome = true ↔ 0 ≤ v ∧ v < 2 ^ 32 := by
  simp only [pack]
  split
  · rename_i h
    exact iff_of_true rfl h
  · rename_i h
    exact iff_of_false (by simp) h

/-- Four bytes read as the number that they are packed from, and as no other. -/
theorem unpackFrom_iff {v : Int} {needle data : List UInt8} (hpack : pack v = some needle)
    (i : Nat) : unpackFrom data i = some v ↔ Search.At needle data i := by
  have hrange := pack_isSome.1 (Option.isSome_iff_exists.2 ⟨needle, hpack⟩)
  rw [pack, if_pos hrange] at hpack
  have hnonneg : ¬ (i : Int) < 0 := by omega
  have hunpack : unpackFrom data i =
      match data.drop i with
      | b₀ :: b₁ :: b₂ :: b₃ :: _ => some (dword b₀ b₁ b₂ b₃ : Int)
      | _ => none := by
    simp only [unpackFrom, hnonneg, if_false, Int.toNat_natCast]
  have hwithin : ∀ {b₀ b₁ b₂ b₃ : UInt8} {rest : List UInt8},
      data.drop i = b₀ :: b₁ :: b₂ :: b₃ :: rest → i ≤ data.length := by
    intro b₀ b₁ b₂ b₃ rest hdrop
    by_contra hbeyond
    rw [List.drop_eq_nil_of_le (by omega)] at hdrop
    cases hdrop
  rw [hunpack, ← Option.some.inj hpack]
  constructor
  · intro h
    split at h
    · rename_i b₀ b₁ b₂ b₃ rest hdrop
      have hv : v.toNat = dword b₀ b₁ b₂ b₃ := by
        have hcast := Option.some.inj h
        omega
      rcases ofNat_dword b₀ b₁ b₂ b₃ with ⟨h₀, h₁, h₂, h₃⟩
      refine ⟨hwithin hdrop, ?_⟩
      rw [hv, h₀, h₁, h₂, h₃, hdrop]
      exact ⟨rest, rfl⟩
    · cases h
  · rintro ⟨_, rest, hrest⟩
    rw [← hrest]
    simp only [List.cons_append]
    rw [dword_ofNat (by omega)]
    congr 1
    omega

/-- Where a dword has been read there are four bytes. -/
theorem unpackFrom_within {data : List UInt8} {off v : Int} (h : unpackFrom data off = some v)
    (hoff : 0 ≤ off) : off + 4 ≤ data.length := by
  have hnonneg : ¬ off < 0 := by omega
  simp only [unpackFrom, hnonneg, if_false] at h
  split at h
  · rename_i b₀ b₁ b₂ b₃ rest hdrop
    have hlength := congrArg List.length hdrop
    simp only [List.length_drop, List.length_cons] at hlength
    omega
  · cases h

/-- The places of the image where a dword stands. -/
theorem mem_dwordsEqual {image : Image} {v : Int} {refs : List Int}
    (h : dwordsEqual image v = some refs) {r : Int} :
    r ∈ refs ↔ (image.base : Int) ≤ r ∧ dw image r = some v := by
  rcases Option.map_eq_some_iff.1 h with ⟨needle, hpack, rfl⟩
  rw [List.mem_map]
  constructor
  · rintro ⟨i, hi, rfl⟩
    have hoff : (image.base : Int) + i - image.base = i := by omega
    refine ⟨by omega, ?_⟩
    rw [dw, hoff, unpackFrom_iff hpack]
    exact Search.mem_occurrences.1 hi
  · rintro ⟨hle, hdw⟩
    have hoff : r - image.base = ((r - image.base).toNat : Int) := by omega
    rw [dw, hoff, unpackFrom_iff hpack] at hdw
    exact ⟨_, Search.mem_occurrences.2 hdw, by omega⟩

theorem pairwise_dwordsEqual {image : Image} {v : Int} {refs : List Int}
    (h : dwordsEqual image v = some refs) : refs.Pairwise (· < ·) := by
  rcases Option.map_eq_some_iff.1 h with ⟨needle, _, rfl⟩
  refine List.Pairwise.map _ ?_ (@Search.pairwise_occurrences _ _ needle image.data)
  intro i j hij
  omega

theorem dwordsEqual_isSome {image : Image} {v : Int} :
    (dwordsEqual image v).isSome = true ↔ 0 ≤ v ∧ v < 2 ^ 32 := by
  rw [dwordsEqual, Option.isSome_map, pack_isSome]

/-! ## Both ways -/

/-- A 32-bit process has mapped the image, and not right at the bottom. -/
def Mapped (image : Image) : Prop :=
  12 ≤ image.base ∧ image.base + image.data.length ≤ 2 ^ 32

/-- The decorated name of a type descriptor stands eight bytes in. -/
def Describes (image : Image) (td : Int) : Prop :=
  ∃ i : Nat, td = image.base + i - 8 ∧ Search.At marker image.data i

/-- The three hops from a vtable to the name of its class. -/
structure Resolves (image : Image) (row : Row) : Prop where
  vtable : image.base ≤ row.vtable - 4 ∧ dw image (row.vtable - 4) = some row.col
  col : image.base ≤ row.col + 12 ∧ dw image (row.col + 12) = some row.td
  valid : validated image row.col = true
  td : Describes image row.td
  name : row.name = cstr image (row.td + 8)

/-- The order in which `by_name` comes to two rows. -/
def Row.Before (row row' : Row) : Prop :=
  row.td < row'.td ∨ row.td = row'.td ∧
    (row.col < row'.col ∨ row.col = row'.col ∧ row.vtable < row'.vtable)

section Listing

variable {image : Image} {sub : List Char} {rows : List Row}

theorem mem_colFor {td col : Int} {cols : List Int} (h : colFor image td = some cols) :
    col ∈ cols ↔
      (image.base ≤ col + 12 ∧ dw image (col + 12) = some td) ∧ validated image col = true := by
  rcases Option.map_eq_some_iff.1 h with ⟨refs, hrefs, rfl⟩
  rw [List.mem_filter, List.mem_map, ← mem_dwordsEqual hrefs]
  refine and_congr_left fun _ => ⟨?_, fun hmem => ⟨col + 12, hmem, by omega⟩⟩
  rintro ⟨r, hr, rfl⟩
  rwa [sub_add_cancel]

theorem mem_vtablesFor {col vtable : Int} {vtables : List Int}
    (h : vtablesFor image col = some vtables) :
    vtable ∈ vtables ↔ image.base ≤ vtable - 4 ∧ dw image (vtable - 4) = some col := by
  rcases Option.map_eq_some_iff.1 h with ⟨refs, hrefs, rfl⟩
  rw [List.mem_map, ← mem_dwordsEqual hrefs]
  refine ⟨?_, fun hmem => ⟨vtable - 4, hmem, by omega⟩⟩
  rintro ⟨r, hr, rfl⟩
  rwa [add_sub_cancel_right]

theorem pairwise_colFor {td : Int} {cols : List Int} (h : colFor image td = some cols) :
    cols.Pairwise (· < ·) := by
  rcases Option.map_eq_some_iff.1 h with ⟨refs, hrefs, rfl⟩
  refine List.Pairwise.filter _ (List.Pairwise.map _ ?_ (pairwise_dwordsEqual hrefs))
  intro r r' hlt
  omega

theorem pairwise_vtablesFor {col : Int} {vtables : List Int}
    (h : vtablesFor image col = some vtables) : vtables.Pairwise (· < ·) := by
  rcases Option.map_eq_some_iff.1 h with ⟨refs, hrefs, rfl⟩
  refine List.Pairwise.map _ ?_ (pairwise_dwordsEqual hrefs)
  intro r r' hlt
  omega

theorem mem_typeDescriptors {td : Int} {name : List Char} :
    (td, name) ∈ typeDescriptors image ↔ Describes image td ∧ name = cstr image (td + 8) := by
  simp only [typeDescriptors, List.mem_map, Search.mem_occurrences, Prod.mk.injEq]
  constructor
  · rintro ⟨i, hi, rfl, rfl⟩
    refine ⟨⟨i, rfl, hi⟩, ?_⟩
    rw [sub_add_cancel]
  · rintro ⟨⟨i, rfl, hi⟩, rfl⟩
    refine ⟨i, hi, rfl, ?_⟩
    rw [sub_add_cancel]

/-- The rows of one type descriptor. -/
theorem mem_rows {descriptor : Int × List Char} {listed : List Row}
    (h : (colFor image descriptor.1).bind (collect fun col =>
      (vtablesFor image col).map fun vtables =>
        vtables.map fun vtable => (⟨descriptor.2, descriptor.1, col, vtable⟩ : Row)) =
          some listed) {row : Row} :
    row ∈ listed ↔ (row.td, row.name) = descriptor ∧
      (image.base ≤ row.vtable - 4 ∧ dw image (row.vtable - 4) = some row.col) ∧
      (image.base ≤ row.col + 12 ∧ dw image (row.col + 12) = some row.td) ∧
      validated image row.col = true := by
  rcases descriptor with ⟨td, name⟩
  rcases Option.bind_eq_some_iff.1 h with ⟨cols, hcols, hcollect⟩
  rw [Search.mem_collect hcollect]
  constructor
  · rintro ⟨col, hcol, found, hfound, hrow⟩
    rcases Option.map_eq_some_iff.1 hfound with ⟨vtables, hvtables, rfl⟩
    rcases List.mem_map.1 hrow with ⟨vtable, hvtable, rfl⟩
    rcases (mem_colFor hcols).1 hcol with ⟨hlocator, hvalid⟩
    exact ⟨rfl, (mem_vtablesFor hvtables).1 hvtable, hlocator, hvalid⟩
  · rintro ⟨hdescriptor, hvtable, hlocator, hvalid⟩
    cases hdescriptor
    have hcol : row.col ∈ cols := (mem_colFor hcols).2 ⟨hlocator, hvalid⟩
    -- The whole loop has come to its end, so this round has too.
    have hround := Search.collect_isSome.1 (Option.isSome_iff_exists.2 ⟨listed, hcollect⟩)
      row.col hcol
    rw [Option.isSome_map] at hround
    rcases Option.isSome_iff_exists.1 hround with ⟨vtables, hvtables⟩
    refine ⟨row.col, hcol, _, by rw [hvtables]; rfl, ?_⟩
    exact List.mem_map.2 ⟨row.vtable, (mem_vtablesFor hvtables).2 hvtable, rfl⟩

theorem mem_byName (h : byName image sub = some rows) {row : Row} :
    row ∈ rows ↔ Resolves image row ∧ contains sub row.name = true := by
  rw [Search.mem_collect h]
  constructor
  · rintro ⟨descriptor, hdescriptor, listed, hlisted, hrow⟩
    split at hlisted
    · cases hlisted
      cases hrow
    · rename_i hcontains
      rcases (mem_rows hlisted).1 hrow with ⟨rfl, hvtable, hcol, hvalid⟩
      rcases mem_typeDescriptors.1 hdescriptor with ⟨htd, hname⟩
      exact ⟨⟨hvtable, hcol, hvalid, htd, hname⟩, by simpa using hcontains⟩
  · rintro ⟨hresolves, hcontains⟩
    have hdescriptor : (row.td, row.name) ∈ typeDescriptors image :=
      mem_typeDescriptors.2 ⟨hresolves.td, hresolves.name⟩
    have hround := Search.collect_isSome.1 (Option.isSome_iff_exists.2 ⟨rows, h⟩) _ hdescriptor
    rcases Option.isSome_iff_exists.1 hround with ⟨listed, hlisted⟩
    refine ⟨_, hdescriptor, listed, hlisted, ?_⟩
    simp only [hcontains, Bool.not_true, Bool.false_eq_true, if_false] at hlisted
    exact (mem_rows hlisted).2 ⟨rfl, hresolves.vtable, hresolves.col, hresolves.valid⟩

/-- In a mapped image every address can be packed. -/
theorem byName_isSome (h : Mapped image) (sub : List Char) :
    (byName image sub).isSome = true := by
  rcases h with ⟨hbase, htop⟩
  refine Search.collect_isSome.2 fun descriptor hdescriptor => ?_
  rcases descriptor with ⟨td, name⟩
  rcases mem_typeDescriptors.1 hdescriptor with ⟨⟨i, htd, hat⟩, _⟩
  have hi := hat.1
  split
  · rfl
  · have hcols : (colFor image td).isSome = true := by
      rw [colFor, Option.isSome_map, dwordsEqual_isSome]
      omega
    rcases Option.isSome_iff_exists.1 hcols with ⟨cols, hcols⟩
    rw [hcols, Option.bind_some]
    refine Search.collect_isSome.2 fun col hcol => ?_
    rcases (mem_colFor hcols).1 hcol with ⟨⟨hle, hdw⟩, _⟩
    have hwithin := unpackFrom_within hdw (by omega)
    rw [Option.isSome_map, vtablesFor, Option.isSome_map, dwordsEqual_isSome]
    omega

theorem pairwise_typeDescriptors :
    (typeDescriptors image).Pairwise fun descriptor descriptor' =>
      descriptor.1 < descriptor'.1 := by
  refine List.Pairwise.map _ ?_ (@Search.pairwise_occurrences _ _ marker image.data)
  intro i j hij
  simp only
  omega

/-- The rows come in the order of their addresses. -/
theorem pairwise_byName (h : byName image sub = some rows) : rows.Pairwise Row.Before := by
  refine Search.pairwise_collect h pairwise_typeDescriptors ?_ ?_
  · intro descriptor _ listed hlisted
    split at hlisted
    · cases hlisted
      exact List.Pairwise.nil
    · rcases Option.bind_eq_some_iff.1 hlisted with ⟨cols, hcols, hcollect⟩
      refine Search.pairwise_collect hcollect (pairwise_colFor hcols) ?_ ?_
      · intro col _ found hfound
        rcases Option.map_eq_some_iff.1 hfound with ⟨vtables, hvtables, rfl⟩
        refine List.Pairwise.map _ ?_ (pairwise_vtablesFor hvtables)
        intro vtable vtable' hlt
        exact Or.inr ⟨rfl, Or.inr ⟨rfl, hlt⟩⟩
      · intro col col' hlt found found' hfound hfound' row hrow row' hrow'
        rcases Option.map_eq_some_iff.1 hfound with ⟨vtables, _, rfl⟩
        rcases Option.map_eq_some_iff.1 hfound' with ⟨vtables', _, rfl⟩
        rcases List.mem_map.1 hrow with ⟨vtable, _, rfl⟩
        rcases List.mem_map.1 hrow' with ⟨vtable', _, rfl⟩
        exact Or.inr ⟨rfl, Or.inl hlt⟩
  · intro descriptor descriptor' hlt listed listed' hlisted hlisted' row hrow row' hrow'
    split at hlisted
    · cases hlisted
      cases hrow
    · split at hlisted'
      · cases hlisted'
        cases hrow'
      · have hrow := ((mem_rows hlisted).1 hrow).1
        have hrow' := ((mem_rows hlisted').1 hrow').1
        rw [← hrow, ← hrow'] at hlt
        exact Or.inl hlt

theorem Resolves.vt {row : Row} (h : Resolves image row) :
    Rtti.vt image row.vtable = some row.name := by
  simp [Rtti.vt, h.vtable.2, h.col.2, h.name]

/-- There is one way from a vtable. -/
theorem Resolves.unique {row row' : Row} (h : Resolves image row) (h' : Resolves image row')
    (heq : row.vtable = row'.vtable) : row = row' := by
  have hcol : row.col = row'.col :=
    Option.some.inj (h.vtable.2.symm.trans (heq ▸ h'.vtable.2))
  have htd : row.td = row'.td := Option.some.inj (h.col.2.symm.trans (hcol ▸ h'.col.2))
  have hname : row.name = row'.name := by rw [h.name, h'.name, htd]
  rcases row with ⟨name, td, col, vtable⟩
  subst hcol htd hname heq
  rfl

end Listing

/-- The two directions agree.  Of a mapped image `by_name` lists, in the order of the addresses,
exactly the vtables from which the three hops lead to a class with the text in its name; none of
them stands in two rows, and the `vt` command prints for each the name it is listed under. -/
theorem listed_iff_resolved (image : Image) (h : Mapped image) (sub : List Char) :
    ∃ rows, byName image sub = some rows ∧ rows.Pairwise Row.Before ∧
      (∀ row, row ∈ rows ↔ Resolves image row ∧ contains sub row.name = true) ∧
      ∀ row ∈ rows, vt image row.vtable = some row.name ∧
        ∀ row' ∈ rows, row'.vtable = row.vtable → row' = row := by
  rcases Option.isSome_iff_exists.1 (byName_isSome h sub) with ⟨rows, hrows⟩
  refine ⟨rows, hrows, pairwise_byName hrows, fun row => mem_byName hrows, ?_⟩
  intro row hrow
  have hresolves := ((mem_byName hrows).1 hrow).1
  refine ⟨hresolves.vt, fun row' hrow' heq => ?_⟩
  exact ((mem_byName hrows).1 hrow').1.unique hresolves heq

/-! ### One class -/

/-- A type descriptor, its locator and the dword in front of the one vtable. -/
def sampleImage : Image where
  base := 0x400000
  data :=
    [0, 0, 0, 0, 0, 0, 0, 0] ++ [0x2E, 0x3F, 0x41, 0x56, 0x58, 0x40, 0x40, 0] ++
      ([0, 0, 0, 0, 0, 0, 0, 0, 0, 0, 0, 0] ++ [0, 0, 0x40, 0] ++ [8, 0, 0x40, 0]) ++
      [0x10, 0, 0x40, 0]

def sampleRow : Row where
  name := ".?AVX@@".toList
  td := 0x400000
  col := 0x400010
  vtable := 0x400028

theorem sampleRow_resolves : Resolves sampleImage sampleRow :=
  ⟨by decide +kernel, by decide +kernel, by decide +kernel,
    ⟨8, by decide +kernel, by decide +kernel⟩, by decide +kernel⟩

theorem listed_iff_resolved_sample : ∃ rows, byName sampleImage ['x', '@'] = some rows ∧
    sampleRow ∈ rows ∧ vt sampleImage 0x400028 = some ".?AVX@@".toList := by
  rcases listed_iff_resolved sampleImage ⟨by decide, by decide⟩ ['x', '@'] with
    ⟨rows, hrows, _, hmem, hvt⟩
  have hrow : sampleRow ∈ rows := (hmem sampleRow).2 ⟨sampleRow_resolves, by decide +kernel⟩
  exact ⟨rows, hrows, hrow, (hvt sampleRow hrow).1⟩

/-! ## The dictionary -/

section Dictionary

variable {image : Image} {names entries : List (Int × List Char)}

/-- The decorated name ends within 120 bytes. -/
def Names (image : Image) (td : Int) (name : List Char) : Prop :=
  ∃ i e : Nat, td = image.base + i - 8 ∧ Search.At marker image.data i ∧
    Search.find [0] image.data i = some e ∧ e - i ≤ 120 ∧ name = slice image.data i e

/-- The hops that `decode-factory.py` makes: the locator is in the image, and of its fields only the
signature is looked at. -/
structure Enters (image : Image) (v : Int) (name : List Char) (td col : Int) : Prop where
  hop : image.base ≤ v - 4 ∧ dw image (v - 4) = some col
  locator : image.base ≤ col ∧ dw image (col + 12) = some td
  signature : dw image col = some 0
  named : Names image td name

theorem length_slice_le (data : List UInt8) (o e : Nat) : (slice data o e).length ≤ e - o := by
  simp only [slice, List.length_map, List.length_drop, List.length_take]
  omega

/-- A name that ends is read in full by both programs. -/
theorem Names.cstr_eq {td : Int} {name : List Char} (h : Names image td name) :
    cstr image (td + 8) = name := by
  rcases h with ⟨i, e, rfl, _, hfind, hshort, rfl⟩
  have hoff : (image.base : Int) + i - 8 + 8 - image.base = i := by omega
  have hstart : start image.data (i : Int) = i := by simp [start]
  simp only [cstr, hoff, hstart, hfind]
  apply List.take_of_length_le
  have := length_slice_le image.data i e
  omega

theorem keys_setdefault (names : List (Int × List Char)) (key : Int) (name : List Char)
    (hnodup : (names.map Prod.fst).Nodup) :
    ((setdefault names key name).map Prod.fst).Nodup := by
  simp only [setdefault]
  split
  · exact hnodup
  · rename_i hfresh
    have hkey : key ∉ names.map Prod.fst := by
      intro hmem
      rcases List.mem_map.1 hmem with ⟨entry, hentry, rfl⟩
      refine hfresh (List.lookup_isSome_iff.2 ⟨entry, hentry, ?_⟩)
      simp
    rw [List.map_append, List.nodup_append]
    refine ⟨hnodup, List.pairwise_singleton _ _, ?_⟩
    rintro k hk _ hk' rfl
    obtain rfl : k = key := by simpa using hk'
    exact hkey hk

theorem keys_foldl_setdefault (entries names : List (Int × List Char))
    (h : (names.map Prod.fst).Nodup) :
    ((entries.foldl (fun names entry => setdefault names entry.1 entry.2)
      names).map Prod.fst).Nodup := by
  induction entries generalizing names with
  | nil => exact h
  | cons entry rest ih => exact ih _ (keys_setdefault names _ _ h)

/-- Where no key asks for two names, the order of the requests does not matter. -/
theorem mem_foldl_setdefault (hone : ∀ entry ∈ names ++ entries, ∀ entry' ∈ names ++ entries,
      entry.1 = entry'.1 → entry = entry') {entry : Int × List Char} :
    entry ∈ entries.foldl (fun names entry => setdefault names entry.1 entry.2) names ↔
      entry ∈ names ++ entries := by
  induction entries generalizing names with
  | nil => simp
  | cons first rest ih =>
    rw [List.foldl_cons]
    by_cases hknown : (names.lookup first.1).isSome = true
    · have hkept : setdefault names first.1 first.2 = names := by simp [setdefault, hknown]
      rcases List.lookup_isSome_iff.1 hknown with ⟨known, hmem, hkey⟩
      -- The name that is there already is the same one.
      have hsame : known = first :=
        hone known (List.mem_append_left _ hmem) first (by simp) (beq_iff_eq.1 hkey).symm
      rw [hkept, ih]
      · simp only [List.mem_append, List.mem_cons]
        constructor
        · rintro (hleft | hright)
          · exact Or.inl hleft
          · exact Or.inr (Or.inr hright)
        · rintro (hleft | rfl | hright)
          · exact Or.inl hleft
          · exact Or.inl (hsame ▸ hmem)
          · exact Or.inr hright
      · intro a ha b hb
        refine hone a ?_ b ?_ <;> simp only [List.mem_append, List.mem_cons] at ha hb ⊢ <;> tauto
    · have hadded : setdefault names first.1 first.2 = names ++ [first] := by
        simp [setdefault, hknown]
      rw [hadded, ih]
      · simp
      · simpa using hone

/-- What one type descriptor enters. -/
theorem mem_factoryEntries {i : Nat} (h : factoryEntries image i = some entries) {v : Int}
    {name : List Char} :
    (v, name) ∈ entries ↔ ∃ e col, Search.find [0] image.data i = some e ∧ e - i ≤ 120 ∧
      name = slice image.data i e ∧ (image.base ≤ v - 4 ∧ dw image (v - 4) = some col) ∧
      (image.base ≤ col ∧ dw image (col + 12) = some ((image.base : Int) + i - 8)) ∧
      dw image col = some 0 := by
  rw [factoryEntries.eq_def] at h
  cases hfind : Search.find [0] image.data i with
  | none =>
    rw [hfind] at h
    cases h
    simp
  | some e =>
    rw [hfind] at h
    simp only at h
    by_cases hlong : e - i > 120
    · rw [if_pos hlong] at h
      cases h
      refine iff_of_false List.not_mem_nil ?_
      rintro ⟨e', _, he', hshort, _⟩
      obtain rfl := Option.some.inj he'
      omega
    · rw [if_neg hlong] at h
      rcases Option.bind_eq_some_iff.1 h with ⟨refs, hrefs, hcollect⟩
      rw [Search.mem_collect hcollect]
      constructor
      · rintro ⟨r, hr, found, hfound, hentry⟩
        rcases (mem_dwordsEqual hrefs).1 hr with ⟨_, hdw⟩
        split at hfound
        · cases hfound
          cases hentry
        · rename_i hinside
          split at hfound
          · cases hfound
            cases hentry
          · rename_i hsignature
            rcases Option.map_eq_some_iff.1 hfound with ⟨slots, hslots, rfl⟩
            rcases List.mem_map.1 hentry with ⟨slot, hslot, heq⟩
            obtain ⟨rfl, rfl⟩ := Prod.mk.inj heq
            rcases (mem_dwordsEqual hslots).1 hslot with ⟨hle, hvalue⟩
            refine ⟨e, r - 12, rfl, by omega, rfl, ⟨by omega, ?_⟩, ⟨by omega, ?_⟩, ?_⟩
            · rwa [add_sub_cancel_right]
            · rwa [sub_add_cancel]
            · exact not_not.1 hsignature
      · rintro ⟨e', col, he', _, rfl, ⟨hle, hslot⟩, ⟨hbase, hlocator⟩, hsignature⟩
        obtain rfl := Option.some.inj he'
        have hr : col + 12 ∈ refs := (mem_dwordsEqual hrefs).2 ⟨by omega, hlocator⟩
        have hround := Search.collect_isSome.1 (Option.isSome_iff_exists.2 ⟨entries, hcollect⟩)
          (col + 12) hr
        have hwithin := unpackFrom_within hsignature (by omega)
        have hinside : ¬ (col + 12 - 12 - image.base < 0 ∨
            col + 12 - 12 - (image.base : Int) + 4 > image.data.length) := by omega
        have hzero : ¬ unpackFrom image.data (col + 12 - 12 - image.base) ≠ some 0 := by
          rw [add_sub_cancel_right]
          exact not_not.2 hsignature
        rw [if_neg hinside, if_neg hzero, add_sub_cancel_right, Option.isSome_map] at hround
        rcases Option.isSome_iff_exists.1 hround with ⟨slots, hslots⟩
        refine ⟨col + 12, hr, slots.map fun r => (r + 4, slice image.data i e), ?_, ?_⟩
        · rw [if_neg hinside, if_neg hzero, add_sub_cancel_right, hslots]
          rfl
        · exact List.mem_map.2 ⟨v - 4, (mem_dwordsEqual hslots).2 ⟨hle, hslot⟩, by simp⟩

theorem mem_entries (h : collect (factoryEntries image) (occurrences marker image.data) =
    some entries) {v : Int} {name : List Char} :
    (v, name) ∈ entries ↔ ∃ td col, Enters image v name td col := by
  rw [Search.mem_collect h]
  constructor
  · rintro ⟨i, hi, found, hfound, hentry⟩
    rcases (mem_factoryEntries hfound).1 hentry with
      ⟨e, col, hfind, hshort, hname, hop, hlocator, hsignature⟩
    exact ⟨_, col, hop, hlocator, hsignature,
      ⟨i, e, rfl, Search.mem_occurrences.1 hi, hfind, hshort, hname⟩⟩
  · rintro ⟨td, col, henters⟩
    rcases henters.named with ⟨i, e, rfl, hat, hfind, hshort, hname⟩
    have hi := Search.mem_occurrences.2 hat
    have hround := Search.collect_isSome.1 (Option.isSome_iff_exists.2 ⟨entries, h⟩) i hi
    rcases Option.isSome_iff_exists.1 hround with ⟨found, hfound⟩
    exact ⟨i, hi, found, hfound, (mem_factoryEntries hfound).2
      ⟨e, col, hfind, hshort, hname, henters.hop, henters.locator, henters.signature⟩⟩

theorem Enters.vt {v : Int} {name : List Char} {td col : Int} (h : Enters image v name td col) :
    Rtti.vt image v = some name := by
  simp [Rtti.vt, h.hop.2, h.locator.2, h.named.cstr_eq]

theorem entries_isSome (h : Mapped image) :
    (collect (factoryEntries image) (occurrences marker image.data)).isSome = true := by
  rcases h with ⟨hbase, htop⟩
  refine Search.collect_isSome.2 fun i hi => ?_
  have hi := (Search.mem_occurrences.1 hi).1
  rw [factoryEntries.eq_def]
  split
  · rfl
  · split
    · rfl
    · have hrefs : (dwordsEqual image ((image.base : Int) + i - 8)).isSome = true :=
        dwordsEqual_isSome.2 (by omega)
      rcases Option.isSome_iff_exists.1 hrefs with ⟨refs, hrefs⟩
      simp only [hrefs, Option.bind_some]
      refine Search.collect_isSome.2 fun r hr => ?_
      have hle := ((mem_dwordsEqual hrefs).1 hr).1
      split
      · rfl
      · split
        · rfl
        · rw [Option.isSome_map, dwordsEqual_isSome]
          omega

end Dictionary

/-- The dictionary of `decode-factory.py` agrees with `rtti.py`.  It has one name for each vtable,
whatever the order of the type descriptors, and it is the name that the `vt` command prints; of the
rows of `by_name` those are in it whose locator is in the image and whose decorated name ends within
120 bytes, and conversely an entry is a row if its locator has a class descriptor. -/
theorem dictionary_agrees (image : Image) (h : Mapped image) :
    ∃ names rows, vtToName image = some names ∧ byName image [] = some rows ∧
      (names.map Prod.fst).Nodup ∧
      (∀ v name, (v, name) ∈ names ↔ ∃ td col, Enters image v name td col) ∧
      (∀ entry ∈ names, vt image entry.1 = some entry.2) ∧
      (∀ row ∈ rows, image.base ≤ row.col → Names image row.td row.name →
        (row.vtable, row.name) ∈ names) ∧
      ∀ v name, (v, name) ∈ names → (∃ col, dw image (v - 4) = some col ∧
        validated image col = true) → ∃ row ∈ rows, row.vtable = v ∧ row.name = name := by
  rcases Option.isSome_iff_exists.1 (byName_isSome h []) with ⟨rows, hrows⟩
  rcases Option.isSome_iff_exists.1 (entries_isSome h) with ⟨entries, hentries⟩
  -- A vtable has one name, so nothing depends on who asks first.
  have hone : ∀ entry ∈ ([] : List (Int × List Char)) ++ entries,
      ∀ entry' ∈ ([] : List (Int × List Char)) ++ entries, entry.1 = entry'.1 →
        entry = entry' := by
    rintro ⟨v, name⟩ hentry ⟨v', name'⟩ hentry' hkey
    obtain rfl : v = v' := hkey
    rcases (mem_entries hentries).1 hentry with ⟨_, _, henters⟩
    rcases (mem_entries hentries).1 hentry' with ⟨_, _, henters'⟩
    rw [Option.some.inj (henters.vt.symm.trans henters'.vt)]
  let names := entries.foldl (fun names entry => setdefault names entry.1 entry.2) []
  have hmem : ∀ v name, (v, name) ∈ names ↔ ∃ td col, Enters image v name td col :=
    fun v name => (mem_foldl_setdefault hone).trans (mem_entries hentries)
  have hvt : ∀ entry ∈ names, vt image entry.1 = some entry.2 := by
    rintro ⟨v, name⟩ hentry
    rcases (hmem v name).1 hentry with ⟨_, _, henters⟩
    exact henters.vt
  refine ⟨names, rows, by rw [vtToName, hentries]; rfl, hrows, ?_, hmem, hvt, ?_, ?_⟩
  · exact keys_foldl_setdefault entries [] List.nodup_nil
  · intro row hrow hcol hnames
    have hresolves := ((mem_byName hrows).1 hrow).1
    have hsignature : dw image row.col = some 0 := by
      have hvalid := hresolves.valid
      simp only [validated, decide_eq_true_eq] at hvalid
      exact hvalid.1
    exact (hmem _ _).2 ⟨row.td, row.col, hresolves.vtable, ⟨hcol, hresolves.col.2⟩, hsignature,
      hnames⟩
  · rintro v name hentry ⟨col, hcol, hvalid⟩
    rcases (hmem v name).1 hentry with ⟨td, col', henters⟩
    obtain rfl : col = col' := Option.some.inj (hcol.symm.trans henters.hop.2)
    have hlocator := henters.locator
    rcases henters.named with ⟨i, _, htd, hat, _⟩
    refine ⟨⟨name, td, col, v⟩, (mem_byName hrows).2 ⟨⟨henters.hop, ⟨?_, hlocator.2⟩, hvalid,
      ⟨i, htd, hat⟩, henters.named.cstr_eq.symm⟩, ?_⟩, rfl, rfl⟩
    · have hle := hlocator.1
      simp only
      omega
    · exact Search.find_isSome.2 ⟨0, le_rfl, Nat.zero_le _, List.nil_prefix⟩

theorem dictionary_agrees_sample : ∃ names rows, vtToName sampleImage = some names ∧
    byName sampleImage [] = some rows ∧ (0x400028, ".?AVX@@".toList) ∈ names ∧
    ∃ row ∈ rows, row.vtable = 0x400028 ∧ row.name = ".?AVX@@".toList := by
  rcases dictionary_agrees sampleImage ⟨by decide, by decide⟩ with
    ⟨names, rows, hnames, hrows, _, hmem, _, _, hlisted⟩
  have hentry : (0x400028, ".?AVX@@".toList) ∈ names := by
    refine (hmem _ _).2 ⟨0x400000, 0x400010, by decide +kernel, by decide +kernel,
      by decide +kernel, 8, 15, ?_⟩
    decide +kernel
  exact ⟨names, rows, hnames, hrows, hentry,
    hlisted _ _ hentry ⟨0x400010, by decide +kernel, by decide +kernel⟩⟩

end Rtti
end Tools
end Crossover
