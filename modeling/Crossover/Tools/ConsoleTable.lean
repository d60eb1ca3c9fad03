import Mathlib.Algebra.Group.Int.Defs
import Crossover.Lib.Machine

/-!
# ConsoleTable — names and the objects they are pushed for

`scan_function` reads the instructions of a function and pairs the name that is pushed, the vtable
that is stored at displacement 0 and the payload that is stored at the displacement of the vtable's
class.  The instructions are what the disassembler yields; the image is a parameter.
-/

namespace Crossover
namespace Tools
namespace ConsoleTable

open History

/-! ## The image -/

/-- `BASE` and `DATA`. -/
structure Image where
  base : Nat
  data : List UInt8

/-- The NUL-terminated ASCII string at `va`. -/
def cstr (image : Image) (va : Nat) : Option (List Char) :=
  if image.base ≤ va ∧ va < image.base + image.data.length then
    -- `maxlen` bytes are searched for the NUL.
    let window := (image.data.drop (va - image.base)).take 80
    let s := window.takeWhile (· ≠ 0)
    -- There is no NUL among these bytes, or it is the first one.
    if s.length = window.length ∨ s = [] then none
    else if s.all fun b => 0x20 ≤ b ∧ b < 0x7F then
      some (s.map fun b => Char.ofNat b.toNat)
    else none
  else none

def isLetter (c : Char) : Bool :=
  ('A' ≤ c ∧ c ≤ 'Z') ∨ ('a' ≤ c ∧ c ≤ 'z')

/-- `NAME_RE`. -/
def nameRe : List Char → Bool
  | [] => false
  | c :: rest =>
      (isLetter c || c = '_') && 1 ≤ rest.length && rest.length ≤ 63 &&
        rest.all fun c => isLetter c || c.isDigit || c = '_' || c = ' ' || c = '.'

/-- The payload's displacement for a vtable of `CLASSES`. -/
def payloadOffset (vt : Nat) : Option Nat :=
  if vt = 0x0122E65C then some 0x14
  else if vt = 0x0129C4E0 then some 0x18
  else if vt = 0x0125D668 then some 0x18
  else if vt = 0x0122E5C8 then some 0x0C
  else none

/-- `BASE_VTABLES`. -/
def isBase (vt : Nat) : Bool :=
  vt = 0x0122E5B0 ∨ vt = 0x0122E638

/-! ## Instructions -/

def isHex (c : Char) : Bool :=
  c.isDigit || ('a' ≤ c && c ≤ 'f')

def hexValue (digits : List Char) : Nat :=
  digits.foldl (fun n c => 16 * n + (if c.isDigit then c.toNat - 48 else c.toNat - 87)) 0

/-- The text behind a word that it begins with. -/
def behind (word text : List Char) : Option (List Char) :=
  if word <+: text then some (text.drop word.length) else none

/-- A number with `0x`. -/
def hex (text : List Char) : Option Nat :=
  match behind "0x".toList text with
  | none => none
  | some digits => if digits ≠ [] ∧ digits.all isHex then some (hexValue digits) else none

def isPrintable (c : Char) : Bool :=
  0x20 ≤ c.toNat ∧ c.toNat < 0x7F

/-- A decoded instruction.  Its operands are printable ASCII, and an operand of `push` that begins
with `0x` is a number. -/
structure Ins where
  mnemonic : List Char
  opStr : List Char
  address : Nat
  printable : opStr.all isPrintable
  operand : mnemonic = "push".toList → "0x".toList <+: opStr → (hex opStr).isSome

/-- A decimal number, taken modulo `2 ^ 32` if it is negative. -/
def decimal (text : List Char) : Option Nat :=
  let digits := (behind "-".toList text).getD text
  if digits ≠ [] ∧ digits.all Char.isDigit then
    let n := Nat.ofDigitChars 10 digits 0
    let value : Int := if "-".toList <+: text then -n else n
    some (value % 2 ^ 32).toNat
  else none

/-- The groups of `STORE_RE`: the displacement, if there is one, and the immediate. -/
def storeRe (op : List Char) : Option (Option (List Char) × List Char) := do
  let rest ← behind "dword ptr [e".toList op
  let letters := rest.take 2
  let rest := rest.drop 2
  -- `e[a-z]{2}`: the name of a register.
  guard (letters.length = 2 ∧ letters.all fun c => 'a' ≤ c ∧ c ≤ 'z')
  match behind " + ".toList rest with
  | none =>
      let imm ← behind "], ".toList rest
      return (none, imm)
  | some rest =>
      let disp := rest.takeWhile (· ≠ ']')
      let imm ← behind "], ".toList (rest.drop disp.length)
      return (some disp, imm)

/-- `mov dword ptr [reg+disp], imm32`. -/
def storeImm (ins : Ins) : Option (Nat × Nat) := do
  guard (ins.mnemonic = "mov".toList)
  let groups ← storeRe ins.opStr
  let disp ← match groups.1 with
    | none => some 0
    | some text => hex text
  let imm ← if "0x".toList <+: groups.2 then hex groups.2 else decimal groups.2
  return (disp, imm)

/-- What `scan_function` takes an instruction for. -/
inductive Seen
  | name (s : List Char)
  | store (disp imm : Nat)
  | other
  deriving DecidableEq, Repr

def look (image : Image) (ins : Ins) : Seen :=
  if ins.mnemonic = "push".toList ∧ "0x".toList <+: ins.opStr then
    match cstr image ((hex ins.opStr).getD 0) with
    | some s => if nameRe s then .name s else .other
    | none => .other
  else
    match storeImm ins with
    | some (disp, imm) => .store disp imm
    | none => .other

/-! ## The scan -/

/-- `name`, `vt` and `at`. -/
structure Scan where
  name : Option (List Char) := none
  vt : Option Nat := none
  at_ : Option Nat := none

/-- A tuple of the result. -/
structure Entry where
  name : Option (List Char)
  vt : Nat
  payload : Nat
  at_ : Option Nat
  deriving DecidableEq, Repr

def step (image : Image) (scan : Scan) (ins : Ins) : Scan × List Entry :=
  match look image ins with
  | .other => (scan, [])
  | .name s => ({ name := some s, vt := none, at_ := none }, [])
  | .store disp imm =>
      if disp = 0 then
        if (payloadOffset imm).isSome then
          ({ scan with vt := some imm, at_ := some ins.address }, [])
        else if !isBase imm then ({ scan with vt := none }, [])
        else (scan, [])
      else
        match scan.vt with
        | none => (scan, [])
        | some vt =>
            if payloadOffset vt = some disp then
              ({}, [{ name := scan.name, vt := vt, payload := imm, at_ := scan.at_ }])
            else (scan, [])

def scanner (image : Image) : Machine Scan Ins Entry where
  step := step image

/-- The instructions are those between `start` and `stop`. -/
def scanFunction (image : Image) (instructions : List Ins) : List Entry :=
  (scanner image).log {} instructions

/-! ## What is to be paired -/

section Spec

variable (image : Image)

def Pushes (ins : Ins) (s : List Char) : Prop :=
  look image ins = .name s

/-- An accepted name is pushed. -/
def PushesName (ins : Ins) : Prop :=
  ∃ s, Pushes image ins s

/-- A known class vtable is stored to displacement 0. -/
def StoresClass (ins : Ins) (vt : Nat) : Prop :=
  look image ins = .store 0 vt ∧ (payloadOffset vt).isSome

/-- An unrelated object is being built. -/
def Unrelated (ins : Ins) : Prop :=
  ∃ imm, look image ins = .store 0 imm ∧ payloadOffset imm = none ∧ isBase imm = false

/-- The payload is stored to the displacement of the class. -/
def StoresPayload (ins : Ins) (vt payload : Nat) : Prop :=
  ∃ disp, payloadOffset vt = some disp ∧ look image ins = .store disp payload

/-- What ends an object: the next name, another vtable that is not of a base class, or its
payload. -/
def Ends (vt : Nat) (ins : Ins) : Prop :=
  PushesName image ins ∨ (∃ vt', StoresClass image ins vt') ∨ Unrelated image ins ∨
    ∃ payload, StoresPayload image ins vt payload

/-- Some class vtable is stored and so is, later, its payload. -/
def HasPair (l : List Ins) : Prop :=
  ∃ b j c k d vt payload, l = b ++ j :: (c ++ k :: d) ∧ StoresClass image j vt ∧
    (∀ x ∈ c, ¬ Ends image vt x) ∧ StoresPayload image k vt payload

/-- What an entry that `k` emits behind `before` says, if it has a name. -/
def Paired (before : List Ins) (k : Ins) (entry : Entry) : Prop :=
  ∀ name, entry.name = some name → ∃ a i b j c, before = a ++ i :: (b ++ j :: c) ∧
    Pushes image i name ∧ StoresClass image j entry.vt ∧ entry.at_ = some j.address ∧
    StoresPayload image k entry.vt entry.payload ∧
    ∀ x ∈ b ++ j :: c, ¬ PushesName image x ∧ ¬ Unrelated image x

/-- Every entry with a name is of one object. -/
def Sound (instructions : List Ins) : Prop :=
  Every (fun before k => ∀ entry ∈ (step image ((scanner image).state {} before) k).2,
    Paired image before k entry) instructions

/-- Every object with a name gets its entry: behind the name, and before any other one, there is one
store to displacement 0 that is not of a base vtable, and a first store of the payload behind it. -/
def Complete (instructions : List Ins) : Prop :=
  ∀ a i b j c k d name vt payload, instructions = a ++ i :: (b ++ j :: (c ++ k :: d)) →
    Pushes image i name → StoresClass image j vt → StoresPayload image k vt payload →
    (∀ x ∈ b ++ c, ¬ PushesName image x ∧ ¬ (∃ vt', StoresClass image x vt') ∧
      ¬ Unrelated image x) →
    (∀ x ∈ c, ¬ ∃ payload', StoresPayload image x vt payload') →
    { name := some name, vt := vt, payload := payload, at_ := some j.address } ∈
      scanFunction image instructions

/-- Behind an accepted name, and before any other one, no unrelated object is begun in front of the
first object that is completed. -/
def NothingBetween (instructions : List Ins) : Prop :=
  ∀ a i b j c k d vt payload, instructions = a ++ i :: (b ++ j :: (c ++ k :: d)) →
    PushesName image i → (∀ x ∈ b, ¬ PushesName image x) → ¬ HasPair image b →
    StoresClass image j vt → (∀ x ∈ c, ¬ Ends image vt x) → StoresPayload image k vt payload →
    ∀ x ∈ b, ¬ Unrelated image x

end Spec

/-! ## One instruction -/

section Look

variable {image : Image} {ins : Ins} {vt : Nat}

theorem payloadOffset_ne_zero (vt : Nat) : payloadOffset vt ≠ some 0 := by
  unfold payloadOffset
  split_ifs <;> decide

theorem ends_of_name (h : PushesName image ins) : Ends image vt ins :=
  Or.inl h

theorem ends_of_class {vt' : Nat} (h : StoresClass image ins vt') : Ends image vt ins :=
  Or.inr (Or.inl ⟨vt', h⟩)

theorem ends_of_unrelated (h : Unrelated image ins) : Ends image vt ins :=
  Or.inr (Or.inr (Or.inl h))

theorem not_name_of_store {disp imm : Nat} (h : look image ins = .store disp imm) :
    ¬ PushesName image ins := by
  rintro ⟨s, hs⟩
  cases h.symm.trans hs

theorem not_payload_of_store {vt imm payload : Nat} (h : look image ins = .store 0 imm) :
    ¬ StoresPayload image ins vt payload := by
  rintro ⟨disp, hdisp, hstore⟩
  cases h.symm.trans hstore
  exact payloadOffset_ne_zero vt hdisp

theorem not_name_of_class (h : StoresClass image ins vt) : ¬ PushesName image ins :=
  not_name_of_store h.1

theorem not_name_of_unrelated (h : Unrelated image ins) : ¬ PushesName image ins := by
  rcases h with ⟨imm, hstore, _⟩
  exact not_name_of_store hstore

theorem not_name_of_payload {payload : Nat} (h : StoresPayload image ins vt payload) :
    ¬ PushesName image ins := by
  rcases h with ⟨disp, _, hstore⟩
  exact not_name_of_store hstore

theorem not_payload_of_class {vt' payload : Nat} (h : StoresClass image ins vt) :
    ¬ StoresPayload image ins vt' payload :=
  not_payload_of_store h.1

theorem not_payload_of_unrelated {payload : Nat} (h : Unrelated image ins) :
    ¬ StoresPayload image ins vt payload := by
  rcases h with ⟨imm, hstore, _⟩
  exact not_payload_of_store hstore

theorem not_unrelated_of_class (h : StoresClass image ins vt) : ¬ Unrelated image ins := by
  rintro ⟨imm, hstore, hnone, _⟩
  cases h.1.symm.trans hstore
  have hsome := h.2
  rw [hnone] at hsome
  cases hsome

/-- The classes of two vtables that an instruction stores are one. -/
theorem class_unique {vt' : Nat} (h : StoresClass image ins vt) (h' : StoresClass image ins vt') :
    vt = vt' := by
  cases h.1.symm.trans h'.1
  rfl

theorem payload_unique {payload payload' : Nat} (h : StoresPayload image ins vt payload)
    (h' : StoresPayload image ins vt payload') : payload = payload' := by
  rcases h with ⟨disp, _, hstore⟩
  rcases h' with ⟨disp', _, hstore'⟩
  cases hstore.symm.trans hstore'
  rfl

/-- Nothing that the scan reacts to, as long as `object` is the vtable it has. -/
structure Passes (image : Image) (object : Option Nat) (ins : Ins) : Prop where
  name : ¬ PushesName image ins
  storesClass : ∀ vt, ¬ StoresClass image ins vt
  unrelated : ¬ Unrelated image ins
  payload : ∀ vt payload, object = some vt → ¬ StoresPayload image ins vt payload

/-- What an instruction does to the scan. -/
inductive Steps (image : Image) (scan : Scan) (ins : Ins) : Scan × List Entry → Prop
  | pushed {s : List Char} (h : Pushes image ins s) :
      Steps image scan ins ({ name := some s }, [])
  | begun {vt : Nat} (h : StoresClass image ins vt) :
      Steps image scan ins ({ scan with vt := some vt, at_ := some ins.address }, [])
  | dropped (h : Unrelated image ins) : Steps image scan ins ({ scan with vt := none }, [])
  | completed {vt payload : Nat} (hvt : scan.vt = some vt)
      (h : StoresPayload image ins vt payload) :
      Steps image scan ins
        ({}, [{ name := scan.name, vt := vt, payload := payload, at_ := scan.at_ }])
  | passed (h : Passes image scan.vt ins) : Steps image scan ins (scan, [])

theorem passes_of_other {object : Option Nat} (h : look image ins = .other) :
    Passes image object ins := by
  refine ⟨?_, ?_, ?_, ?_⟩
  · simp [PushesName, Pushes, h]
  · simp [StoresClass, h]
  · simp [Unrelated, h]
  · simp [StoresPayload, h]

/-- The vtable of a base class is stored on the way. -/
theorem passes_of_base {object : Option Nat} {imm : Nat} (h : look image ins = .store 0 imm)
    (hclass : ¬ (payloadOffset imm).isSome) (hbase : isBase imm) : Passes image object ins := by
  refine ⟨not_name_of_store h, ?_, ?_, fun _ _ _ => not_payload_of_store h⟩
  · rintro vt ⟨hstore, hsome⟩
    cases h.symm.trans hstore
    exact hclass hsome
  · rintro ⟨imm', hstore, _, hother⟩
    cases h.symm.trans hstore
    rw [hbase] at hother
    cases hother

theorem passes_of_field {object : Option Nat} {disp imm : Nat}
    (h : look image ins = .store disp imm) (hzero : disp ≠ 0)
    (hoffset : ∀ vt, object = some vt → payloadOffset vt ≠ some disp) :
    Passes image object ins := by
  have hother : ∀ imm', look image ins ≠ .store 0 imm' := by
    intro imm' hstore
    cases h.symm.trans hstore
    exact hzero rfl
  refine ⟨not_name_of_store h, fun vt hclass => hother vt hclass.1, ?_, ?_⟩
  · rintro ⟨imm', hstore, _⟩
    exact hother imm' hstore
  · rintro vt payload hvt ⟨disp', hdisp', hstore⟩
    cases h.symm.trans hstore
    exact hoffset vt hvt hdisp'

theorem steps_step (image : Image) (scan : Scan) (ins : Ins) :
    Steps image scan ins (step image scan ins) := by
  cases hlook : look image ins with
  | other =>
    simp only [step, hlook]
    exact .passed (passes_of_other hlook)
  | name s =>
    simp only [step, hlook]
    exact .pushed hlook
  | store disp imm =>
    by_cases hzero : disp = 0
    · subst hzero
      simp only [step, hlook, if_true]
      split_ifs with hclass hbase
      · exact .begun ⟨hlook, hclass⟩
      · have hother : isBase imm = false := by simpa using hbase
        exact .dropped ⟨imm, hlook, Option.not_isSome_iff_eq_none.1 hclass, hother⟩
      · exact .passed (passes_of_base hlook hclass (by simpa using hbase))
    · simp only [step, hlook, if_neg hzero]
      cases hvt : scan.vt with
      | none =>
        refine .passed (passes_of_field hlook hzero ?_)
        intro vt hsome
        cases hvt.symm.trans hsome
      | some vt =>
        by_cases hoffset : payloadOffset vt = some disp
        · simp only [if_pos hoffset]
          exact .completed hvt ⟨disp, hoffset, hlook⟩
        · simp only [if_neg hoffset]
          refine .passed (passes_of_field hlook hzero ?_)
          intro vt' hsome
          cases hvt.symm.trans hsome
          exact hoffset

end Look

/-! ## Names and objects in front of an instruction -/

section Behind

variable (image : Image)

/-- A class vtable has been stored, at this address, and nothing has ended the object since. -/
def Open (l : List Ins) (object : Nat × Nat) : Prop :=
  Live (fun object x => StoresClass image x object.1 ∧ x.address = object.2)
    (fun object x => Ends image object.1 x) l object

/-- The instruction stores the payload of an object. -/
def Completes (before : List Ins) (k : Ins) : Prop :=
  ∃ object payload, Open image before object ∧ StoresPayload image k object.1 payload

/-- A name has been pushed and there has been no other one since, nor an object that it could be
of. -/
def Named (l : List Ins) (name : List Char) : Prop :=
  ∃ a i b, l = a ++ i :: b ∧ Pushes image i name ∧ (∀ x ∈ b, ¬ PushesName image x) ∧
    ¬ HasPair image b

variable {image} {l : List Ins} {x : Ins} {object : Nat × Nat} {name : List Char}

theorem open_snoc :
    Open image (l ++ [x]) object ↔
      (StoresClass image x object.1 ∧ x.address = object.2) ∨
        Open image l object ∧ ¬ Ends image object.1 x :=
  live_snoc

theorem not_hasPair_iff :
    ¬ HasPair image l ↔ Every (fun before k => ¬ Completes image before k) l := by
  constructor
  · rintro hnone before k after rfl ⟨⟨vt, address⟩, payload, ⟨b, j, c, rfl, ⟨hclass, _⟩, hopen⟩,
      hpayload⟩
    exact hnone ⟨b, j, c, k, after, vt, payload, by simp, hclass, hopen, hpayload⟩
  · rintro hevery ⟨b, j, c, k, d, vt, payload, rfl, hclass, hopen, hpayload⟩
    have hsplit : b ++ j :: (c ++ k :: d) = (b ++ j :: c) ++ k :: d := by simp
    refine hevery _ _ _ hsplit ⟨(vt, j.address), payload, ?_, hpayload⟩
    exact ⟨b, j, c, rfl, ⟨hclass, rfl⟩, hopen⟩

theorem not_hasPair_snoc :
    ¬ HasPair image (l ++ [x]) ↔ ¬ HasPair image l ∧ ¬ Completes image l x := by
  rw [not_hasPair_iff, not_hasPair_iff, every_snoc]

/-- What is open behind a name has been begun behind it. -/
theorem open_behind_name {a b : List Ins} {i : Ins} (hi : PushesName image i) :
    Open image (a ++ i :: b) object ↔ Open image b object := by
  induction b using List.reverseRecOn with
  | nil =>
    have hclass : ¬ StoresClass image i object.1 := fun h => not_name_of_class h hi
    have hends : Ends image object.1 i := ends_of_name hi
    have hempty : ¬ Open image [] object := not_live_nil object
    rw [open_snoc]
    tauto
  | append_singleton b x ih =>
    have hsplit : a ++ i :: (b ++ [x]) = (a ++ i :: b) ++ [x] := by simp
    rw [hsplit, open_snoc, open_snoc, ih]

theorem completes_behind_name {a b : List Ins} {i : Ins} (hi : PushesName image i) :
    Completes image (a ++ i :: b) x ↔ Completes image b x := by
  simp only [Completes, open_behind_name hi]

theorem named_snoc :
    Named image (l ++ [x]) name ↔
      Pushes image x name ∨
        Named image l name ∧ ¬ PushesName image x ∧ ¬ Completes image l x := by
  constructor
  · rintro ⟨a, i, b, hsplit, hi, hnames, hnone⟩
    induction b using List.reverseRecOn with
    | nil =>
      have hlast := (List.append_inj' hsplit rfl).2
      exact Or.inl (List.singleton_inj.1 hlast ▸ hi)
    -- The name stands further in front.
    | append_singleton b y _ =>
      have hsplit' : l ++ [x] = (a ++ i :: b) ++ [y] := by simpa using hsplit
      rcases List.append_inj' hsplit' rfl with ⟨hl, hx⟩
      have heq : x = y := List.singleton_inj.1 hx
      rw [not_hasPair_snoc] at hnone
      refine Or.inr ⟨⟨a, i, b, hl, hi, ?_, hnone.1⟩, ?_, ?_⟩
      · intro z hz
        exact hnames z (List.mem_append_left _ hz)
      · exact heq ▸ hnames y (by simp)
      · rw [hl, completes_behind_name ⟨name, hi⟩, heq]
        exact hnone.2
  · rintro (hx | ⟨⟨a, i, b, hl, hi, hnames, hnone⟩, hnot, hcompletes⟩)
    · refine ⟨l, x, [], rfl, hx, by simp, ?_⟩
      rw [not_hasPair_iff]
      exact every_nil _
    · rw [hl, completes_behind_name ⟨name, hi⟩] at hcompletes
      refine ⟨a, i, b ++ [x], by simp [hl], hi, ?_, not_hasPair_snoc.2 ⟨hnone, hcompletes⟩⟩
      intro z hz
      rcases List.mem_append.1 hz with hz | hz
      · exact hnames z hz
      · exact List.mem_singleton.1 hz ▸ hnot

end Behind

/-! ## The state of the scan -/

/-- The variables of `scan_function` behind the instructions `l`. -/
structure Keeps (image : Image) (l : List Ins) (scan : Scan) : Prop where
  name : ∀ name, scan.name = some name ↔ Named image l name
  object : ∀ vt address, scan.vt = some vt ∧ scan.at_ = some address ↔ Open image l (vt, address)
  at_ : ∀ vt, scan.vt = some vt → ∃ address, scan.at_ = some address

section Scan

variable {image : Image} {l : List Ins} {scan : Scan} {x : Ins}

theorem keeps_nil : Keeps image [] {} := by
  refine ⟨?_, ?_, ?_⟩
  · intro name
    have hnone : ¬ Named image [] name := by
      rintro ⟨a, i, b, hsplit, _⟩
      simp at hsplit
    simp [hnone]
  · intro vt address
    have hnone : ¬ Open image [] (vt, address) := not_live_nil _
    simp [hnone]
  · intro vt hvt
    cases hvt

/-- An instruction that is none of the others changes nothing. -/
theorem Keeps.passed (h : Keeps image l scan) (hx : Passes image scan.vt x) :
    Keeps image (l ++ [x]) scan := by
  have hends : ∀ vt address, Open image l (vt, address) → ¬ Ends image vt x := by
    rintro vt address hopen (hname | ⟨vt', hclass⟩ | hunrelated | ⟨payload, hpayload⟩)
    · exact hx.name hname
    · exact hx.storesClass vt' hclass
    · exact hx.unrelated hunrelated
    · exact hx.payload vt payload ((h.object vt address).2 hopen).1 hpayload
  have hcompletes : ¬ Completes image l x := by
    rintro ⟨⟨vt, address⟩, payload, hopen, hpayload⟩
    exact hends vt address hopen (Or.inr (Or.inr (Or.inr ⟨payload, hpayload⟩)))
  refine ⟨?_, ?_, h.at_⟩
  · intro name
    have hpush : ¬ Pushes image x name := fun hpush => hx.name ⟨name, hpush⟩
    rw [h.name, named_snoc]
    have := hx.name
    tauto
  · intro vt address
    have hnot := hends vt address
    have hnew := hx.storesClass vt
    rw [h.object, open_snoc]
    tauto

/-- An entry is emitted where an object is completed. -/
theorem mem_step_iff {entry : Entry} :
    entry ∈ (step image scan x).2 ↔
      scan.vt = some entry.vt ∧ StoresPayload image x entry.vt entry.payload ∧
        entry.name = scan.name ∧ entry.at_ = scan.at_ := by
  have hsteps := steps_step image scan x
  generalize step image scan x = result at hsteps
  cases hsteps with
  | pushed h =>
    have hnone : ¬ StoresPayload image x entry.vt entry.payload := fun hpayload =>
      not_name_of_payload hpayload ⟨_, h⟩
    simp [hnone]
  | begun h => simp [not_payload_of_class h]
  | dropped h => simp [not_payload_of_unrelated h]
  | completed hvt h =>
    rcases entry with ⟨name, vt', payload', at_⟩
    rw [List.mem_singleton]
    constructor
    · rintro ⟨⟩
      exact ⟨hvt, h, rfl, rfl⟩
    · rintro ⟨hvt', h', hname, hat⟩
      simp only at hvt' h' hname hat
      have hsame := Option.some.inj (hvt.symm.trans hvt')
      subst hsame
      rw [payload_unique h h', hname, hat]
  | passed h =>
    have hnone : scan.vt = some entry.vt → ¬ StoresPayload image x entry.vt entry.payload :=
      h.payload entry.vt entry.payload
    simp only [List.not_mem_nil, false_iff]
    rintro ⟨hvt, hpayload, _⟩
    exact hnone hvt hpayload

/-- A name is pushed. -/
theorem keeps_pushed {s : List Char} (hx : Pushes image x s) :
    Keeps image (l ++ [x]) { name := some s } := by
  have hname : PushesName image x := ⟨s, hx⟩
  refine ⟨?_, ?_, ?_⟩
  · intro name
    have hpush : Pushes image x name ↔ s = name := by
      rw [Pushes, hx, Seen.name.injEq]
    rw [named_snoc, hpush]
    simp [hname]
  · intro vt address
    have hclass : ¬ StoresClass image x vt := fun hstore => not_name_of_class hstore hname
    have hends : Ends image vt x := ends_of_name hname
    rw [open_snoc]
    simp [hclass, hends]
  · intro vt hvt
    cases hvt

/-- As long as no object is completed, the name stays. -/
theorem Keeps.named (h : Keeps image l scan) (hname : ¬ PushesName image x)
    (hpayload : ∀ vt payload, ¬ StoresPayload image x vt payload) (name : List Char) :
    scan.name = some name ↔ Named image (l ++ [x]) name := by
  have hpush : ¬ Pushes image x name := fun hx => hname ⟨name, hx⟩
  have hcompletes : ¬ Completes image l x := by
    rintro ⟨object, payload, _, hstore⟩
    exact hpayload _ _ hstore
  rw [h.name, named_snoc]
  tauto

/-- An object is begun. -/
theorem Keeps.begun {vt : Nat} (h : Keeps image l scan) (hx : StoresClass image x vt) :
    Keeps image (l ++ [x]) { scan with vt := some vt, at_ := some x.address } := by
  refine ⟨h.named (not_name_of_class hx) fun _ _ => not_payload_of_class hx, ?_, ?_⟩
  · intro vt' address
    have hends : Ends image vt' x := ends_of_class hx
    rw [open_snoc]
    constructor
    · rintro ⟨hvt, haddress⟩
      rw [← Option.some.inj hvt, ← Option.some.inj haddress]
      exact Or.inl ⟨hx, rfl⟩
    · rintro (⟨hsame, haddress⟩ | ⟨_, hnot⟩)
      · exact ⟨congrArg some (class_unique hx hsame), congrArg some haddress⟩
      · exact absurd hends hnot
  · exact fun vt _ => ⟨x.address, rfl⟩

/-- An unrelated object is begun: the vtable is dropped, and the name is not. -/
theorem Keeps.dropped (h : Keeps image l scan) (hx : Unrelated image x) :
    Keeps image (l ++ [x]) { scan with vt := none } := by
  refine ⟨h.named (not_name_of_unrelated hx) fun _ _ => not_payload_of_unrelated hx, ?_, ?_⟩
  · intro vt address
    have hends : Ends image vt x := ends_of_unrelated hx
    have hclass : ¬ StoresClass image x vt := fun hclass => not_unrelated_of_class hclass hx
    rw [open_snoc]
    simp [hclass, hends]
  · intro vt hvt
    cases hvt

/-- An object is completed. -/
theorem Keeps.completed {vt payload : Nat} (h : Keeps image l scan) (hvt : scan.vt = some vt)
    (hx : StoresPayload image x vt payload) : Keeps image (l ++ [x]) {} := by
  have hname : ¬ PushesName image x := not_name_of_payload hx
  have hclass : ∀ vt', ¬ StoresClass image x vt' := fun _ hclass => not_payload_of_class hclass hx
  rcases h.at_ vt hvt with ⟨address, haddress⟩
  have hcompletes : Completes image l x :=
    ⟨(vt, address), payload, (h.object vt address).1 ⟨hvt, haddress⟩, hx⟩
  refine ⟨?_, ?_, ?_⟩
  · intro name
    have hpush : ¬ Pushes image x name := fun hx => hname ⟨name, hx⟩
    rw [named_snoc]
    simp [hpush, hcompletes]
  · intro vt' address'
    have hnew := hclass vt'
    rw [open_snoc]
    refine iff_of_false (fun hnone => by cases hnone.1) ?_
    rintro (⟨hstores, _⟩ | ⟨hopen, hnot⟩)
    · exact hnew hstores
    · -- Only one object is open.
      have hsame := ((h.object vt' address').2 hopen).1
      rw [hvt] at hsame
      exact hnot (Or.inr (Or.inr (Or.inr ⟨payload, Option.some.inj hsame ▸ hx⟩)))
  · intro vt' hvt'
    cases hvt'

theorem Keeps.step (h : Keeps image l scan) : Keeps image (l ++ [x]) (step image scan x).1 := by
  have hsteps := steps_step image scan x
  generalize ConsoleTable.step image scan x = result at hsteps
  cases hsteps with
  | pushed hx => exact keeps_pushed hx
  | begun hx => exact h.begun hx
  | dropped hx => exact h.dropped hx
  | completed hvt hx => exact h.completed hvt hx
  | passed hx => exact h.passed hx

end Scan

/-! ## Whole functions -/

section Run

variable {image : Image} {l before a b c : List Ins} {i j k : Ins} {name : List Char}
  {vt payload : Nat} {entry : Entry}

theorem keeps_run (image : Image) (l : List Ins) :
    Keeps image l ((scanner image).state {} l) := by
  induction l using List.reverseRecOn with
  | nil => exact keeps_nil
  | append_singleton l x ih =>
    rw [Machine.state_snoc]
    exact ih.step

theorem named_unique {name' : List Char} (h : Named image l name) (h' : Named image l name') :
    name = name' := by
  have hname := ((keeps_run image l).name name).2 h
  rw [((keeps_run image l).name name').2 h'] at hname
  exact (Option.some.inj hname).symm

theorem open_unique {object object' : Nat × Nat} (h : Open image l object)
    (h' : Open image l object') : object = object' := by
  rcases ((keeps_run image l).object _ _).2 h with ⟨hvt, hat⟩
  rcases ((keeps_run image l).object _ _).2 h' with ⟨hvt', hat'⟩
  exact Prod.ext (Option.some.inj (hvt.symm.trans hvt')) (Option.some.inj (hat.symm.trans hat'))

/-- What an instruction emits is the object that it completes, with the name that is there. -/
theorem emitted_iff :
    entry ∈ (step image ((scanner image).state {} before) k).2 ↔
      ∃ address, entry.at_ = some address ∧ Open image before (entry.vt, address) ∧
        StoresPayload image k entry.vt entry.payload ∧
        ∀ name, entry.name = some name ↔ Named image before name := by
  -- The variables of the scan say what is open and what the name is.
  have hkeeps := keeps_run image before
  rw [mem_step_iff]
  constructor
  · rintro ⟨hvt, hpayload, hname, hat⟩
    rcases hkeeps.at_ entry.vt hvt with ⟨address, haddress⟩
    refine ⟨address, hat.trans haddress, (hkeeps.object _ _).1 ⟨hvt, haddress⟩, hpayload, ?_⟩
    intro name
    rw [hname]
    exact hkeeps.name name
  · rintro ⟨address, hat, hopen, hpayload, hname⟩
    rcases (hkeeps.object _ _).2 hopen with ⟨hvt, haddress⟩
    refine ⟨hvt, hpayload, ?_, hat.trans haddress.symm⟩
    refine Option.ext fun name => ?_
    exact (hname name).trans (hkeeps.name name).symm

/-- As long as the payload of an object is missing, there is no pair up to it. -/
theorem not_hasPair_open (hnone : ¬ HasPair image b) (hj : StoresClass image j vt)
    (hc : ∀ x ∈ c, ¬ Ends image vt x) : ¬ HasPair image (b ++ j :: c) := by
  induction c using List.reverseRecOn with
  | nil =>
    refine not_hasPair_snoc.2 ⟨hnone, ?_⟩
    rintro ⟨object, payload, _, hpayload⟩
    exact not_payload_of_class hj hpayload
  | append_singleton c x ih =>
    have hc' : ∀ y ∈ c, ¬ Ends image vt y := fun y hy => hc y (List.mem_append_left _ hy)
    have hsplit : b ++ j :: (c ++ [x]) = (b ++ j :: c) ++ [x] := by simp
    rw [hsplit]
    refine not_hasPair_snoc.2 ⟨ih hc', ?_⟩
    rintro ⟨object, payload, hopen, hpayload⟩
    -- Nothing else is open, and the payload of this one does not come in `c`.
    have hsame : object = (vt, j.address) := open_unique hopen ⟨b, j, c, rfl, ⟨hj, rfl⟩, hc'⟩
    rw [hsame] at hpayload
    exact hc x (by simp) (Or.inr (Or.inr (Or.inr ⟨payload, hpayload⟩)))

/-- The first object that is completed behind a name gets it. -/
theorem first_emitted (hi : Pushes image i name) (hb : ∀ x ∈ b, ¬ PushesName image x)
    (hnone : ¬ HasPair image b) (hj : StoresClass image j vt) (hc : ∀ x ∈ c, ¬ Ends image vt x)
    (hk : StoresPayload image k vt payload) :
    { name := some name, vt := vt, payload := payload, at_ := some j.address } ∈
      (step image ((scanner image).state {} (a ++ i :: (b ++ j :: c))) k).2 := by
  have hnames : ∀ x ∈ b ++ j :: c, ¬ PushesName image x := by
    intro x hx
    rcases List.mem_append.1 hx with hx | hx
    · exact hb x hx
    rcases List.mem_cons.1 hx with rfl | hx
    · exact not_name_of_class hj
    · exact fun hname => hc x hx (ends_of_name hname)
  have hnamed : Named image (a ++ i :: (b ++ j :: c)) name :=
    ⟨a, i, b ++ j :: c, rfl, hi, hnames, not_hasPair_open hnone hj hc⟩
  refine emitted_iff.2 ⟨j.address, rfl, ?_, hk, ?_⟩
  · exact ⟨a ++ i :: b, j, c, by simp, ⟨hj, rfl⟩, hc⟩
  · intro name'
    constructor
    · rintro ⟨⟩
      exact hnamed
    · intro hnamed'
      exact congrArg some (named_unique hnamed hnamed')

theorem complete (image : Image) (instructions : List Ins) : Complete image instructions := by
  intro a i b j c k d name vt payload hsplit hi hj hk hbetween hfirst
  have hb : ∀ x ∈ b, ¬ PushesName image x := fun x hx =>
    (hbetween x (List.mem_append_left _ hx)).1
  -- There is no other class vtable, hence no pair.
  have hnone : ¬ HasPair image b := by
    rintro ⟨b', j', c', k', d', vt', payload', rfl, hj', _⟩
    exact (hbetween j' (by simp)).2.1 ⟨vt', hj'⟩
  have hc : ∀ x ∈ c, ¬ Ends image vt x := by
    intro x hx
    rcases hbetween x (List.mem_append_right _ hx) with ⟨hname, hclass, hunrelated⟩
    rintro (h | h | h | h)
    · exact hname h
    · exact hclass h
    · exact hunrelated h
    · exact hfirst x hx h
  have hsplit' : instructions = (a ++ i :: (b ++ j :: c)) ++ k :: d := by simp [hsplit]
  rw [hsplit', scanFunction, Machine.log_append, Machine.log_cons]
  exact List.mem_append_right _ (List.mem_append_left _ (first_emitted hi hb hnone hj hc hk))

theorem sound_iff (image : Image) (instructions : List Ins) :
    Sound image instructions ↔ NothingBetween image instructions := by
  constructor
  · rintro hsound a i b j c k d vt payload hsplit ⟨name, hi⟩ hb hnone hj hc hk x hx
    have hsplit' : instructions = (a ++ i :: (b ++ j :: c)) ++ k :: d := by simp [hsplit]
    -- The pair is emitted with the name, so nothing unrelated is in front of it.
    have hemitted := first_emitted (a := a) hi hb hnone hj hc hk
    rcases hsound _ k d hsplit' _ hemitted name rfl with
      ⟨a', i', b', j', c', hbefore, hi', _, _, _, hnothing⟩
    -- Behind the last name, both ways to split the instructions are one.
    have hsame : b ++ j :: c = b' ++ j' :: c' := by
      rcases split_cases hbefore with ⟨_, hsame⟩ | hmem | hmem
      · exact hsame
      · rcases List.mem_append.1 hmem with hmem | hmem
        · exact absurd ⟨name, hi'⟩ (hb i' hmem)
        rcases List.mem_cons.1 hmem with rfl | hmem
        · exact absurd ⟨name, hi'⟩ (not_name_of_class hj)
        · exact absurd (ends_of_name ⟨name, hi'⟩) (hc i' hmem)
      · exact absurd ⟨name, hi⟩ (hnothing i hmem).1
    exact (hnothing x (hsame ▸ List.mem_append_left _ hx)).2
  · rintro hnothing before k after hsplit entry hentry name hname
    rcases emitted_iff.1 hentry with ⟨address, hat, hopen, hk, hnames⟩
    rcases (hnames name).1 hname with ⟨a, i, b', rfl, hi, hb', hnone⟩
    rw [open_behind_name ⟨name, hi⟩] at hopen
    rcases hopen with ⟨b, j, c, rfl, ⟨hj, rfl⟩, hc⟩
    have hnone' : ¬ HasPair image b := by
      rw [not_hasPair_iff, every_append] at hnone
      exact not_hasPair_iff.2 hnone.1
    have hb : ∀ x ∈ b, ¬ PushesName image x := fun x hx => hb' x (List.mem_append_left _ hx)
    -- The object that is completed here is the first one behind its name.
    have hunrelated := hnothing a i b j c k after entry.vt entry.payload (by simp [hsplit])
      ⟨name, hi⟩ hb hnone' hj hc hk
    refine ⟨a, i, b, j, c, rfl, hi, hj, hat, hk, ?_⟩
    intro x hx
    refine ⟨hb' x hx, ?_⟩
    rcases List.mem_append.1 hx with hx | hx
    · exact hunrelated x hx
    rcases List.mem_cons.1 hx with rfl | hx
    · exact not_unrelated_of_class hj
    · exact fun h => hc x hx (ends_of_unrelated h)

/-- An object that has a name gets its entry.  The entries that have a name are right exactly if
nothing unrelated is begun between a name and the first object that is completed behind it. -/
theorem paired_iff (image : Image) (instructions : List Ins) :
    Sound image instructions ∧ Complete image instructions ↔
      NothingBetween image instructions := by
  constructor
  · rintro ⟨hsound, _⟩
    exact (sound_iff image instructions).1 hsound
  · intro hnothing
    exact ⟨(sound_iff image instructions).2 hnothing, complete image instructions⟩

end Run

/-! ## A name that stays -/

section Stale

def staleImage : Image where
  base := 0x400000
  -- `Gold`
  data := [0x47, 0x6F, 0x6C, 0x64, 0]

def pushGold : Ins where
  mnemonic := "push".toList
  opStr := "0x400000".toList
  address := 0x401000
  printable := by decide
  operand := by decide +kernel

/-- The vtable is not of the table. -/
def storeUnrelated : Ins where
  mnemonic := "mov".toList
  opStr := "dword ptr [eax], 0x1234560".toList
  address := 0x401005
  printable := by decide
  operand := by decide +kernel

def storeVariable : Ins where
  mnemonic := "mov".toList
  opStr := "dword ptr [esi], 0x122e5c8".toList
  address := 0x40100B
  printable := by decide
  operand := by decide +kernel

def storeAddress : Ins where
  mnemonic := "mov".toList
  opStr := "dword ptr [esi + 0xc], 0x402000".toList
  address := 0x401011
  printable := by decide
  operand := by decide +kernel

def staleCode : List Ins :=
  [pushGold, storeUnrelated, storeVariable, storeAddress]

theorem look_storeUnrelated : look staleImage storeUnrelated = .store 0 0x1234560 := by
  decide +kernel

theorem look_storeVariable : look staleImage storeVariable = .store 0 0x0122E5C8 := by
  decide +kernel

theorem look_storeAddress : look staleImage storeAddress = .store 0xC 0x402000 := by
  decide +kernel

theorem unrelated_storeUnrelated : Unrelated staleImage storeUnrelated :=
  ⟨0x1234560, look_storeUnrelated, by decide, by decide⟩

/-- Only the first instruction pushes a name, and the second one stands behind it. -/
theorem not_paired_stale {before after : List Ins} {k : Ins} {entry : Entry} {name : List Char}
    (hname : entry.name = some name) (hsplit : staleCode = before ++ k :: after) :
    ¬ Paired staleImage before k entry := by
  intro hpaired
  rcases hpaired name hname with ⟨a, i, b, j, c, rfl, hi, hj, _, _, hnothing⟩
  have hcode : pushGold :: [storeUnrelated, storeVariable, storeAddress] =
      a ++ i :: (b ++ j :: c ++ k :: after) := by
    simpa [staleCode] using hsplit
  cases a with
  | nil =>
    have hbehind := (List.cons.inj hcode).2
    have hmem : storeUnrelated ∈ b ++ j :: c := by
      cases b with
      | nil => simp [(List.cons.inj hbehind).1]
      | cons x b => simp [(List.cons.inj hbehind).1]
    exact (hnothing storeUnrelated hmem).2 unrelated_storeUnrelated
  | cons x a =>
    have hmem : i ∈ [storeUnrelated, storeVariable, storeAddress] := by
      simp [(List.cons.inj hcode).2]
    have hpush : PushesName staleImage i := ⟨name, hi⟩
    simp only [List.mem_cons, List.not_mem_nil, or_false] at hmem
    rcases hmem with rfl | rfl | rfl
    · exact not_name_of_store look_storeUnrelated hpush
    · exact not_name_of_store look_storeVariable hpush
    · exact not_name_of_store look_storeAddress hpush

/-- The name of an object that is not of the table goes to the next object. -/
theorem stale_name_paired :
    ¬ (Sound staleImage staleCode ∧ Complete staleImage staleCode) ∧
      ∃ entry ∈ scanFunction staleImage staleCode, entry.name = some "Gold".toList ∧
        ∀ before k after, staleCode = before ++ k :: after →
          ¬ Paired staleImage before k entry := by
  refine ⟨?_, ⟨some "Gold".toList, 0x0122E5C8, 0x402000, some 0x40100B⟩, ?_, rfl, ?_⟩
  · rintro ⟨hsound, _⟩
    have hsplit : staleCode = [pushGold, storeUnrelated, storeVariable] ++ storeAddress :: [] := rfl
    have hpaired := hsound _ _ _ hsplit
      ⟨some "Gold".toList, 0x0122E5C8, 0x402000, some 0x40100B⟩ (by decide +kernel)
    exact not_paired_stale rfl hsplit hpaired
  · decide +kernel
  · intro before k after hsplit
    exact not_paired_stale rfl hsplit

end Stale

end ConsoleTable
end Tools
end Crossover
