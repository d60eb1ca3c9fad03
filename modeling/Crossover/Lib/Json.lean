import Mathlib.Data.Rat.Defs
import Mathlib.Algebra.Order.Ring.Rat

/-!
# Json — texts and what they say

A recursive-descent reader of JSON with exact numbers.  The reader is given fuel, and
`Parses` asks for some amount of it, so that a text is well formed or not whatever the fuel.

Main results:

* more fuel changes nothing (`readValue_mono`);
* a `Draft` is a text put together from lexemes, some of which may be no JSON at all; its rendering
  says what the lexemes say, and nothing if one of them is broken (`parses_render_iff`).
-/

namespace Crossover

/-- A JSON value. -/
inductive Json
  | null
  | bool (value : Bool)
  | number (value : ℚ)
  | string (text : List Char)
  | array (items : List Json)
  | object (members : List (List Char × Json))

namespace Json

/-- The value of the first member with this name. -/
def field (name : List Char) : Json → Option Json
  | .object members => (members.find? fun m => m.1 == name).map Prod.snd
  | _ => none

/-! ## Characters -/

/-- The quotation mark. -/
def quote : Char := '\x22'

/-- The backslash. -/
def backslash : Char := '\x5c'

def isSpace (c : Char) : Bool :=
  c == ' ' || c == '\t' || c == '\n' || c == '\r'

def skipSpace (text : List Char) : List Char :=
  text.dropWhile isSpace

/-- The text behind a word it starts with. -/
def readLiteral : List Char → List Char → Option (List Char)
  | [], text => some text
  | _ :: _, [] => none
  | c :: word, d :: text => if c = d then readLiteral word text else none

/-! ## Numbers -/

/-- The digits a text starts with, and the rest. -/
def readDigits (text : List Char) : List Char × List Char :=
  (text.takeWhile Char.isDigit, text.dropWhile Char.isDigit)

/-- One digit or more. -/
def readDigits1 (text : List Char) : Option (List Char × List Char) :=
  if (readDigits text).1 = [] then none else some (readDigits text)

/-- Whether the text starts with a minus, and the text behind it. -/
def readMinus : List Char → Bool × List Char
  | [] => (false, [])
  | c :: rest => if c = '-' then (true, rest) else (false, c :: rest)

/-- The integer part; a leading zero is all of it. -/
def readWhole : List Char → Option (List Char × List Char)
  | [] => none
  | c :: rest => if c = '0' then some ([c], rest) else readDigits1 (c :: rest)

def readFraction : List Char → Option (List Char × List Char)
  | [] => some ([], [])
  | c :: rest => if c = '.' then readDigits1 rest else some ([], c :: rest)

/-- The sign of an exponent, and the text behind it. -/
def readSign : List Char → Bool × List Char
  | [] => (false, [])
  | c :: rest => if c = '+' then (false, rest) else readMinus (c :: rest)

def readExponent : List Char → Option (Int × List Char)
  | [] => some (0, [])
  | c :: rest =>
      if c = 'e' ∨ c = 'E' then
        (readDigits1 (readSign rest).2).map fun read =>
          let size : Int := Nat.ofDigitChars 10 read.1 0
          (if (readSign rest).1 then -size else size, read.2)
      else some (0, c :: rest)

/-- The number with these digits in front of and behind the point. -/
def decimal (negative : Bool) (whole fraction : List Char) (exponent : Int) : ℚ :=
  let size := (Nat.ofDigitChars 10 (whole ++ fraction) 0 : ℚ) / 10 ^ fraction.length
  (if negative then -size else size) * 10 ^ exponent

def readNumber (text : List Char) : Option (ℚ × List Char) :=
  match readWhole (readMinus text).2 with
  | none => none
  | some front =>
      match readFraction front.2 with
      | none => none
      | some back =>
          (readExponent back.2).map fun read =>
            (decimal (readMinus text).1 front.1 back.1 read.1, read.2)

/-! ## Strings -/

def hexDigit (c : Char) : Option Nat :=
  if c.isDigit then some (c.toNat - '0'.toNat)
  else if 'a' ≤ c ∧ c ≤ 'f' then some (c.toNat - 'a'.toNat + 10)
  else if 'A' ≤ c ∧ c ≤ 'F' then some (c.toNat - 'A'.toNat + 10)
  else none

/-- The code unit of four hexadecimal digits. -/
def hexUnit (a b c d : Char) : Option Nat :=
  match hexDigit a, hexDigit b, hexDigit c, hexDigit d with
  | some a, some b, some c, some d => some (((a * 16 + b) * 16 + c) * 16 + d)
  | _, _, _, _ => none

/-- What the character behind a backslash stands for. -/
def escaped (c : Char) : Option Nat :=
  if c = quote ∨ c = backslash ∨ c = '/' then some c.toNat
  else if c = 'b' then some 8
  else if c = 'f' then some 12
  else if c = 'n' then some 10
  else if c = 'r' then some 13
  else if c = 't' then some 9
  else none

/-- The code points and units up to the closing quotation mark, and the text behind it. -/
def readUnits : List Char → Option (List Nat × List Char)
  | [] => none
  | c :: rest =>
      if c = quote then some ([], rest)
      else if c = backslash then
        match rest with
        | [] => none
        | e :: rest =>
            if e = 'u' then
              match rest with
              | a :: b :: c :: d :: rest =>
                  match hexUnit a b c d with
                  | none => none
                  | some unit => (readUnits rest).map fun read => (unit :: read.1, read.2)
              | _ => none
            else
              match escaped e with
              | none => none
              | some unit => (readUnits rest).map fun read => (unit :: read.1, read.2)
      else if c.toNat < 0x20 then none
      else (readUnits rest).map fun read => (c.toNat :: read.1, read.2)

/-- A code unit by itself; half a surrogate pair becomes the replacement character. -/
def single (unit : Nat) : Char :=
  if 0xD800 ≤ unit ∧ unit < 0xE000 then '\uFFFD' else Char.ofNat unit

/-- Surrogate pairs joined. -/
def characters : List Nat → List Char
  | [] => []
  | [unit] => [single unit]
  | high :: low :: rest =>
      if 0xD800 ≤ high ∧ high < 0xDC00 ∧ 0xDC00 ≤ low ∧ low < 0xE000 then
        Char.ofNat (0x10000 + (high - 0xD800) * 0x400 + (low - 0xDC00)) :: characters rest
      else single high :: characters (low :: rest)

/-- A string, behind its opening quotation mark. -/
def readString (text : List Char) : Option (List Char × List Char) :=
  (readUnits text).map fun read => (characters read.1, read.2)

/-! ## Values -/

/-- A value that is neither an array nor an object. -/
def readScalar (text : List Char) : Option (Json × List Char) :=
  match text with
  | [] => none
  | c :: rest =>
      if c = quote then (readString rest).map fun read => (.string read.1, read.2)
      else if c = 'n' then (readLiteral ['u', 'l', 'l'] rest).map fun rest => (.null, rest)
      else if c = 't' then (readLiteral ['r', 'u', 'e'] rest).map fun rest => (.bool true, rest)
      else if c = 'f' then
        (readLiteral ['a', 'l', 's', 'e'] rest).map fun rest => (.bool false, rest)
      else (readNumber (c :: rest)).map fun read => (.number read.1, read.2)

/-- The name of a member, with the colon behind it. -/
def readName (text : List Char) : Option (List Char × List Char) :=
  match skipSpace text with
  | [] => none
  | c :: rest =>
      if c = quote then
        match readString rest with
        | none => none
        | some read => (readLiteral [':'] (skipSpace read.2)).map fun rest => (read.1, rest)
      else none

mutual

/-- The value a text starts with, and the text behind it. -/
def readValue : Nat → List Char → Option (Json × List Char)
  | 0, _ => none
  | fuel + 1, text =>
      match skipSpace text with
      | [] => none
      | c :: rest =>
          if c = '[' then
            match readLiteral [']'] (skipSpace rest) with
            | some rest => some (.array [], rest)
            | none => (readItems fuel rest).map fun read => (.array read.1, read.2)
          else if c = '{' then
            match readLiteral ['}'] (skipSpace rest) with
            | some rest => some (.object [], rest)
            | none => (readMembers fuel rest).map fun read => (.object read.1, read.2)
          else readScalar (c :: rest)

/-- The items of an array that is not empty, with its closing bracket. -/
def readItems : Nat → List Char → Option (List Json × List Char)
  | 0, _ => none
  | fuel + 1, text =>
      match readValue fuel text with
      | none => none
      | some first =>
          match skipSpace first.2 with
          | [] => none
          | c :: rest =>
              if c = ',' then (readItems fuel rest).map fun read => (first.1 :: read.1, read.2)
              else if c = ']' then some ([first.1], rest)
              else none

/-- The members of an object that is not empty, with its closing brace. -/
def readMembers : Nat → List Char → Option (List (List Char × Json) × List Char)
  | 0, _ => none
  | fuel + 1, text =>
      match readName text with
      | none => none
      | some key =>
          match readValue fuel key.2 with
          | none => none
          | some first =>
              match skipSpace first.2 with
              | [] => none
              | c :: rest =>
                  if c = ',' then
                    (readMembers fuel rest).map fun read => ((key.1, first.1) :: read.1, read.2)
                  else if c = '}' then some ([(key.1, first.1)], rest)
                  else none

end

/-- The whole text is one value. -/
def Parses (text : List Char) (v : Json) : Prop :=
  ∃ fuel rest, readValue fuel text = some (v, rest) ∧ skipSpace rest = []

def WellFormed (text : List Char) : Prop :=
  ∃ v, Parses text v

/-! ## Fuel -/

section Fuel

/-- What is read with some fuel is read with more. -/
theorem read_succ (fuel : Nat) :
    (∀ text, readValue fuel text = none ∨ readValue (fuel + 1) text = readValue fuel text) ∧
    (∀ text, readItems fuel text = none ∨ readItems (fuel + 1) text = readItems fuel text) ∧
    (∀ text, readMembers fuel text = none ∨
      readMembers (fuel + 1) text = readMembers fuel text) := by
  induction fuel with
  | zero => exact ⟨fun _ => .inl rfl, fun _ => .inl rfl, fun _ => .inl rfl⟩
  | succ fuel ih =>
    rcases ih with ⟨hvalue, hitems, hmembers⟩
    refine ⟨?_, ?_, ?_⟩
    · intro text
      rw [readValue, readValue]
      cases skipSpace text with
      | nil => exact .inl rfl
      | cons c rest =>
        simp only
        split
        · cases readLiteral [']'] (skipSpace rest) with
          | some rest => exact .inr rfl
          | none =>
            rcases hitems rest with hnone | hsame
            · exact .inl (by simp [hnone])
            · exact .inr (by simp [hsame])
        · split
          · cases readLiteral ['}'] (skipSpace rest) with
            | some rest => exact .inr rfl
            | none =>
              rcases hmembers rest with hnone | hsame
              · exact .inl (by simp [hnone])
              · exact .inr (by simp [hsame])
          · exact .inr rfl
    · intro text
      rw [readItems, readItems]
      rcases hvalue text with hnone | hsame
      · exact .inl (by simp [hnone])
      · rw [hsame]
        cases readValue fuel text with
        | none => exact .inl rfl
        | some first =>
          simp only
          cases skipSpace first.2 with
          | nil => exact .inl rfl
          | cons c rest =>
            simp only
            split
            · rcases hitems rest with hnone | hsame
              · exact .inl (by simp [hnone])
              · exact .inr (by simp [hsame])
            · exact .inr rfl
    · intro text
      rw [readMembers, readMembers]
      cases readName text with
      | none => exact .inl rfl
      | some key =>
        simp only
        rcases hvalue key.2 with hnone | hsame
        · exact .inl (by simp [hnone])
        · rw [hsame]
          cases readValue fuel key.2 with
          | none => exact .inl rfl
          | some first =>
            simp only
            cases skipSpace first.2 with
            | nil => exact .inl rfl
            | cons c rest =>
              simp only
              split
              · rcases hmembers rest with hnone | hsame
                · exact .inl (by simp [hnone])
                · exact .inr (by simp [hsame])
              · exact .inr rfl

theorem readValue_mono {fuel more : Nat} {text : List Char} {read : Json × List Char}
    (hle : fuel ≤ more) (h : readValue fuel text = some read) :
    readValue more text = some read := by
  induction hle with
  | refl => exact h
  | step _ ih =>
    rcases (read_succ _).1 text with hnone | hsame
    · rw [ih] at hnone
      cases hnone
    · rw [hsame, ih]

end Fuel

/-! ## Lexemes and drafts -/

/-- What comes behind a value inside of a text, or the end of the text. -/
def Stops : List Char → Prop
  | [] => True
  | c :: _ => c = ',' ∨ c = ']' ∨ c = '}'

/-- What a scalar starts with is neither space nor a bracket. -/
def Opens : List Char → Prop
  | [] => False
  | c :: _ => isSpace c = false ∧ c ≠ '[' ∧ c ≠ '{' ∧ c ≠ ']'

/-- A piece of text in the place of a scalar: it says what `meaning` is wherever it stands, or stops
the reader. -/
structure Lexeme where
  text : List Char
  meaning : Option Json
  opens : Opens text
  reads : ∀ behind, Stops behind →
    readScalar (text ++ behind) = meaning.map fun v => (v, behind)

/-- Whether a character stands for itself. -/
def isPlain (c : Char) : Bool :=
  c != quote && c != backslash && decide (0x20 ≤ c.toNat)

/-- The name of a member; nothing in it needs an escape. -/
structure Name where
  text : List Char
  plain : text.all isPlain = true

inductive Draft
  | lexeme (lexeme : Lexeme)
  | array (items : List Draft)
  | object (members : List (Name × Draft))

mutual

def Draft.render : Draft → List Char
  | .lexeme l => l.text
  | .array ds => '[' :: (renderItems ds ++ [']'])
  | .object ms => '{' :: (renderMembers ms ++ ['}'])

def renderItems : List Draft → List Char
  | [] => []
  | [d] => d.render
  | d :: d' :: ds => d.render ++ ',' :: renderItems (d' :: ds)

def renderMembers : List (Name × Draft) → List Char
  | [] => []
  | [(key, d)] => quote :: key.text ++ quote :: ':' :: d.render
  | (key, d) :: m :: ms =>
      quote :: key.text ++ quote :: ':' :: (d.render ++ ',' :: renderMembers (m :: ms))

end

mutual

def Draft.meaning : Draft → Option Json
  | .lexeme l => l.meaning
  | .array ds => (itemMeanings ds).map .array
  | .object ms => (memberMeanings ms).map .object

def itemMeanings : List Draft → Option (List Json)
  | [] => some []
  | d :: ds =>
      match d.meaning with
      | none => none
      | some v => (itemMeanings ds).map fun vs => v :: vs

def memberMeanings : List (Name × Draft) → Option (List (List Char × Json))
  | [] => some []
  | (key, d) :: ms =>
      match d.meaning with
      | none => none
      | some v => (memberMeanings ms).map fun vs => (key.text, v) :: vs

end

mutual

/-- The fuel it takes to read the rendering. -/
def Draft.fuel : Draft → Nat
  | .lexeme _ => 1
  | .array ds => itemsFuel ds + 1
  | .object ms => membersFuel ms + 1

def itemsFuel : List Draft → Nat
  | [] => 0
  | d :: ds => d.fuel + itemsFuel ds + 1

def membersFuel : List (Name × Draft) → Nat
  | [] => 0
  | (_, d) :: ms => d.fuel + membersFuel ms + 1

end

/-! ## Reading what has been rendered -/

section Reading

theorem skipSpace_cons {c : Char} (h : isSpace c = false) (rest : List Char) :
    skipSpace (c :: rest) = c :: rest := by
  rw [skipSpace, List.dropWhile_cons_of_neg (by simp [h])]

/-- No character is half a surrogate pair. -/
theorem single_toNat (c : Char) : single c.toNat = c := by
  have hvalid : ¬ (0xD800 ≤ c.toNat ∧ c.toNat < 0xE000) := by
    rcases c.valid with hlow | hhigh
    · intro hpair
      exact absurd hpair.1 (Nat.not_le.2 hlow)
    · intro hpair
      exact absurd hhigh.1 (Nat.not_lt.2 (Nat.le_of_lt_succ hpair.2))
  rw [single, if_neg hvalid, Char.ofNat_toNat]

theorem characters_toNat (text : List Char) : characters (text.map Char.toNat) = text := by
  induction text with
  | nil => rfl
  | cons c text ih =>
    cases text with
    | nil => simp [characters, single_toNat]
    | cons d text =>
      have hvalid : ¬ (0xD800 ≤ c.toNat ∧ c.toNat < 0xDC00 ∧
          0xDC00 ≤ d.toNat ∧ d.toNat < 0xE000) := by
        rintro ⟨hle, hlt, -, -⟩
        rcases c.valid with hlow | hhigh
        · exact absurd hle (Nat.not_le.2 hlow)
        · exact absurd hhigh.1 (Nat.not_lt.2 (Nat.le_of_lt (Nat.lt_trans hlt (by decide))))
      rw [List.map_cons, List.map_cons, characters, if_neg hvalid, single_toNat]
      exact congrArg _ ih

/-- A character that stands for itself. -/
theorem readUnits_cons {c : Char} (hquote : c ≠ quote) (hbackslash : c ≠ backslash)
    (hplain : 0x20 ≤ c.toNat) (rest : List Char) :
    readUnits (c :: rest) = (readUnits rest).map fun read => (c.toNat :: read.1, read.2) := by
  rw [readUnits.eq_def]
  simp only [if_neg hquote, if_neg hbackslash, if_neg (Nat.not_lt.2 hplain)]

/-- An escape of two characters. -/
theorem readUnits_escape {e : Char} {unit : Nat} (hu : e ≠ 'u') (h : escaped e = some unit)
    (rest : List Char) :
    readUnits (backslash :: e :: rest) =
      (readUnits rest).map fun read => (unit :: read.1, read.2) := by
  rw [readUnits.eq_def]
  simp only [if_neg (show ¬ backslash = quote by decide), if_true, if_neg hu, h]

theorem readUnits_quote (rest : List Char) : readUnits (quote :: rest) = some ([], rest) := by
  rw [readUnits.eq_def]
  simp only [if_true]

theorem isPlain_iff {c : Char} :
    isPlain c = true ↔ c ≠ quote ∧ c ≠ backslash ∧ 0x20 ≤ c.toNat := by
  simp [isPlain, and_assoc]

/-- A text in which everything stands for itself is read as it is. -/
theorem readUnits_plain {text : List Char} (h : ∀ c ∈ text, isPlain c = true) (rest : List Char) :
    readUnits (text ++ quote :: rest) = some (text.map Char.toNat, rest) := by
  induction text with
  | nil => exact readUnits_quote rest
  | cons c text ih =>
    rcases isPlain_iff.1 (h c List.mem_cons_self) with ⟨hquote, hbackslash, hprintable⟩
    rw [List.cons_append, readUnits_cons hquote hbackslash hprintable,
      ih fun d hd => h d (List.mem_cons_of_mem _ hd)]
    rfl

theorem readString_plain (key : Name) (rest : List Char) :
    readString (key.text ++ quote :: rest) = some (key.text, rest) := by
  rw [readString, readUnits_plain (List.all_eq_true.1 key.plain), Option.map_some,
    characters_toNat]

theorem readName_name (key : Name) (rest : List Char) :
    readName (quote :: key.text ++ quote :: ':' :: rest) = some (key.text, rest) := by
  rw [List.cons_append, readName, skipSpace_cons (by decide)]
  simp only [if_true, readString_plain, skipSpace_cons (show isSpace ':' = false by decide)]
  simp [readLiteral]

/-- A draft's text starts with something that is neither space nor the end of an array. -/
theorem Draft.render_opens (d : Draft) :
    ∃ c rest, d.render = c :: rest ∧ isSpace c = false ∧ c ≠ ']' := by
  cases d with
  | lexeme l =>
    have hopens := l.opens
    cases htext : l.text with
    | nil =>
      rw [htext] at hopens
      exact hopens.elim
    | cons c rest =>
      rw [htext] at hopens
      exact ⟨c, rest, by rw [Draft.render, htext], hopens.1, hopens.2.2.2⟩
  | array ds => exact ⟨'[', _, by rw [Draft.render], by decide, by decide⟩
  | object ms => exact ⟨'{', _, by rw [Draft.render], by decide, by decide⟩

theorem renderItems_opens (d : Draft) (ds : List Draft) (rest : List Char) :
    ∃ c text, renderItems (d :: ds) ++ rest = c :: text ∧ isSpace c = false ∧ c ≠ ']' := by
  rcases d.render_opens with ⟨c, text, hrender, hopens⟩
  cases ds with
  | nil => exact ⟨c, text ++ rest, by rw [renderItems, hrender]; rfl, hopens⟩
  | cons d' ds => exact ⟨c, _, by rw [renderItems, hrender]; rfl, hopens⟩

theorem renderMembers_opens (m : Name × Draft) (ms : List (Name × Draft)) (rest : List Char) :
    ∃ text, renderMembers (m :: ms) ++ rest = quote :: text := by
  rcases m with ⟨key, d⟩
  cases ms with
  | nil => exact ⟨_, by rw [renderMembers]; rfl⟩
  | cons m ms => exact ⟨_, by rw [renderMembers]; rfl⟩

theorem readValue_lexeme (l : Lexeme) (fuel : Nat) {behind : List Char} (h : Stops behind) :
    readValue (fuel + 1) (l.text ++ behind) = l.meaning.map fun v => (v, behind) := by
  have hreads := l.reads behind h
  have hopens := l.opens
  cases htext : l.text with
  | nil =>
    rw [htext] at hopens
    exact hopens.elim
  | cons c rest =>
    rw [htext] at hopens hreads
    rw [List.cons_append, readValue, skipSpace_cons hopens.1]
    simp only [if_neg hopens.2.1, if_neg hopens.2.2.1]
    exact hreads

/-- With this much fuel, what has been rendered is read as what it says, wherever it stands. -/
structure ReadsRendered (fuel : Nat) : Prop where
  value : ∀ (d : Draft) behind, d.fuel ≤ fuel → Stops behind →
    readValue fuel (d.render ++ behind) = d.meaning.map fun v => (v, behind)
  items : ∀ d ds behind, itemsFuel (d :: ds) ≤ fuel →
    readItems fuel (renderItems (d :: ds) ++ ']' :: behind) =
      (itemMeanings (d :: ds)).map fun vs => (vs, behind)
  members : ∀ m ms behind, membersFuel (m :: ms) ≤ fuel →
    readMembers fuel (renderMembers (m :: ms) ++ '}' :: behind) =
      (memberMeanings (m :: ms)).map fun vs => (vs, behind)

variable {fuel : Nat}

theorem readValue_array (h : ReadsRendered fuel) (ds : List Draft) (behind : List Char)
    (hfuel : itemsFuel ds ≤ fuel) :
    readValue (fuel + 1) ((Draft.array ds).render ++ behind) =
      (Draft.array ds).meaning.map fun v => (v, behind) := by
  rw [Draft.render, Draft.meaning, List.cons_append, readValue, skipSpace_cons (by decide)]
  simp only [if_true, List.append_assoc, List.singleton_append]
  cases ds with
  | nil => simp [renderItems, itemMeanings, skipSpace_cons, isSpace, readLiteral]
  | cons d ds =>
    rcases renderItems_opens d ds (']' :: behind) with ⟨c, text, htext, hspace, hopen⟩
    have hitems := h.items d ds behind hfuel
    rw [htext] at hitems ⊢
    rw [skipSpace_cons hspace, readLiteral, if_neg (Ne.symm hopen)]
    simp only [hitems]
    cases itemMeanings (d :: ds) <;> rfl

theorem readValue_object (h : ReadsRendered fuel) (ms : List (Name × Draft))
    (behind : List Char) (hfuel : membersFuel ms ≤ fuel) :
    readValue (fuel + 1) ((Draft.object ms).render ++ behind) =
      (Draft.object ms).meaning.map fun v => (v, behind) := by
  rw [Draft.render, Draft.meaning, List.cons_append, readValue, skipSpace_cons (by decide)]
  simp only [if_neg (show ¬ '{' = '[' by decide), if_true, List.append_assoc,
    List.singleton_append]
  cases ms with
  | nil => simp [renderMembers, memberMeanings, skipSpace_cons, isSpace, readLiteral]
  | cons m ms =>
    rcases renderMembers_opens m ms ('}' :: behind) with ⟨text, htext⟩
    have hmembers := h.members m ms behind hfuel
    rw [htext] at hmembers ⊢
    rw [skipSpace_cons (by decide), readLiteral, if_neg (by decide)]
    simp only [hmembers]
    cases memberMeanings (m :: ms) <;> rfl

theorem readItems_step (h : ReadsRendered fuel) (d : Draft) (ds : List Draft)
    (behind : List Char) (hfuel : d.fuel + itemsFuel ds ≤ fuel) :
    readItems (fuel + 1) (renderItems (d :: ds) ++ ']' :: behind) =
      (itemMeanings (d :: ds)).map fun vs => (vs, behind) := by
  have hd : d.fuel ≤ fuel := Nat.le_trans (Nat.le_add_right _ _) hfuel
  have hds : itemsFuel ds ≤ fuel := Nat.le_trans (Nat.le_add_left _ _) hfuel
  cases ds with
  | nil =>
    have hfirst := h.value d (']' :: behind) hd (.inr (.inl rfl))
    rw [renderItems, readItems, hfirst, itemMeanings]
    cases d.meaning with
    | none => rfl
    | some v => simp [skipSpace_cons, isSpace, itemMeanings]
  | cons d' ds =>
    have hmore := h.items d' ds behind hds
    have hfirst := h.value d (',' :: (renderItems (d' :: ds) ++ ']' :: behind)) hd (.inl rfl)
    rw [renderItems, List.append_assoc, List.cons_append, readItems, hfirst, itemMeanings]
    cases d.meaning with
    | none => rfl
    | some v =>
      simp only [Option.map_some, skipSpace_cons (show isSpace ',' = false by decide), if_true,
        hmore]
      cases itemMeanings (d' :: ds) <;> rfl

theorem readMembers_step (h : ReadsRendered fuel) (key : Name) (d : Draft)
    (ms : List (Name × Draft)) (behind : List Char) (hfuel : d.fuel + membersFuel ms ≤ fuel) :
    readMembers (fuel + 1) (renderMembers ((key, d) :: ms) ++ '}' :: behind) =
      (memberMeanings ((key, d) :: ms)).map fun vs => (vs, behind) := by
  have hd : d.fuel ≤ fuel := Nat.le_trans (Nat.le_add_right _ _) hfuel
  have hms : membersFuel ms ≤ fuel := Nat.le_trans (Nat.le_add_left _ _) hfuel
  cases ms with
  | nil =>
    have hfirst := h.value d ('}' :: behind) hd (.inr (.inr rfl))
    have htext : renderMembers [(key, d)] ++ '}' :: behind =
        quote :: key.text ++ quote :: ':' :: (d.render ++ '}' :: behind) := by
      simp [renderMembers]
    rw [htext, readMembers, readName_name, memberMeanings]
    simp only [hfirst]
    cases d.meaning with
    | none => rfl
    | some v => simp [skipSpace_cons, isSpace, memberMeanings]
  | cons m ms =>
    have hmore := h.members m ms behind hms
    let more := renderMembers (m :: ms) ++ '}' :: behind
    have hfirst := h.value d (',' :: more) hd (.inl rfl)
    have htext : renderMembers ((key, d) :: m :: ms) ++ '}' :: behind =
        quote :: key.text ++ quote :: ':' :: (d.render ++ ',' :: more) := by
      simp [renderMembers, more]
    rw [htext, readMembers, readName_name, memberMeanings]
    simp only [hfirst]
    cases d.meaning with
    | none => rfl
    | some v =>
      simp only [Option.map_some, skipSpace_cons (show isSpace ',' = false by decide), if_true,
        more, hmore]
      cases memberMeanings (m :: ms) <;> rfl

theorem readsRendered (fuel : Nat) : ReadsRendered fuel := by
  induction fuel with
  | zero =>
    refine { value := ?_, items := ?_, members := ?_ }
    · intro d behind hfuel
      cases d <;> simp [Draft.fuel] at hfuel
    · intro d ds behind hfuel
      simp [itemsFuel] at hfuel
    · intro m ms behind hfuel
      simp [membersFuel] at hfuel
  | succ fuel ih =>
    refine { value := ?_, items := ?_, members := ?_ }
    · intro d behind hfuel hstops
      cases d with
      | lexeme l => rw [Draft.render, Draft.meaning, readValue_lexeme l fuel hstops]
      | array ds => exact readValue_array ih ds behind (Nat.le_of_succ_le_succ hfuel)
      | object ms => exact readValue_object ih ms behind (Nat.le_of_succ_le_succ hfuel)
    · intro d ds behind hfuel
      exact readItems_step ih d ds behind (Nat.le_of_succ_le_succ hfuel)
    · intro m ms behind hfuel
      exact readMembers_step ih m.1 m.2 ms behind (Nat.le_of_succ_le_succ hfuel)

/-- The text of a draft says what the draft says, and nothing if that is nothing. -/
theorem parses_render_iff (d : Draft) (v : Json) : Parses d.render v ↔ d.meaning = some v := by
  have hread : ∀ fuel, d.fuel ≤ fuel →
      readValue fuel d.render = d.meaning.map fun v => (v, []) := by
    intro fuel hfuel
    have hvalue := (readsRendered fuel).value d [] hfuel trivial
    rwa [List.append_nil] at hvalue
  constructor
  · rintro ⟨fuel, rest, hvalue, -⟩
    have hmore := readValue_mono (Nat.le_max_left fuel d.fuel) hvalue
    rw [hread _ (Nat.le_max_right fuel d.fuel)] at hmore
    rcases Option.map_eq_some_iff.1 hmore with ⟨w, hmeaning, hpair⟩
    rw [hmeaning, (Prod.mk.inj hpair).1]
  · intro hmeaning
    exact ⟨d.fuel, [], by rw [hread d.fuel (Nat.le_refl _), hmeaning]; rfl, rfl⟩

/-! ### Lists of items and members -/

theorem renderItems_cons (d : Draft) (ds : List Draft) :
    renderItems (d :: ds) = d.render ++ ds.flatMap fun d => ',' :: d.render := by
  induction ds generalizing d with
  | nil => simp [renderItems]
  | cons d' ds ih => rw [renderItems, ih, List.flatMap_cons, List.cons_append]

/-- A member by itself. -/
def renderMember (m : Name × Draft) : List Char :=
  quote :: m.1.text ++ quote :: ':' :: m.2.render

theorem renderMembers_cons (m : Name × Draft) (ms : List (Name × Draft)) :
    renderMembers (m :: ms) = renderMember m ++ ms.flatMap fun m => ',' :: renderMember m := by
  induction ms generalizing m with
  | nil => simp [renderMembers, renderMember]
  | cons m' ms ih => simp [renderMembers, renderMember, ih]

/-- Items as a loop writes them, with a comma in front of all but the first. -/
theorem renderItems_eq_flatMap (ds : List Draft) :
    renderItems ds =
      ds.zipIdx.flatMap fun item => (if item.2 = 0 then [] else [',']) ++ item.1.render := by
  have hlater : ∀ (ds : List Draft) (k : Nat),
      (ds.zipIdx (k + 1)).flatMap
          (fun item => (if item.2 = 0 then [] else [',']) ++ item.1.render) =
        ds.flatMap fun d => ',' :: d.render := by
    intro ds
    induction ds with
    | nil => intro k; rfl
    | cons d ds ih =>
      intro k
      rw [List.zipIdx_cons, List.flatMap_cons, List.flatMap_cons, ih]
      rfl
  cases ds with
  | nil => rfl
  | cons d ds =>
    rw [renderItems_cons, List.zipIdx_cons, List.flatMap_cons, hlater]
    rfl

/-- Items that each say something under a condition of their own say all of it together, or
nothing. -/
theorem itemMeanings_map {α : Type*} {C : α → Prop} [DecidablePred C] {draft : α → Draft}
    {value : α → Json} (h : ∀ x, (draft x).meaning = if C x then some (value x) else none)
    (xs : List α) :
    itemMeanings (xs.map draft) = if ∀ x ∈ xs, C x then some (xs.map value) else none := by
  induction xs with
  | nil => rfl
  | cons x xs ih =>
    rw [List.map_cons, itemMeanings, h, ih]
    by_cases hx : C x
    · by_cases hxs : ∀ x ∈ xs, C x <;> simp [hx, hxs]
    · simp [hx]

end Reading

/-! ## Numbers in decimal notation -/

section Numbers

/-- The digits of an integer part: there is one, and none in front is superfluous. -/
structure IsWhole (ds : List Char) : Prop where
  nonempty : ds ≠ []
  digits : ∀ c ∈ ds, c.isDigit = true
  leading : ds.head? = some '0' → ds = ['0']

theorem isWhole_toDigits (n : Nat) : IsWhole (Nat.toDigits 10 n) where
  nonempty := Nat.toDigits_ne_nil
  digits := fun _ hc => Nat.isDigit_of_mem_toDigits (by decide) (by decide) hc
  leading := by
    have hone : ∀ n < 10, [n.digitChar].head? = some '0' → [n.digitChar] = ['0'] := by decide
    induction n using Nat.strong_induction_on with
    | _ n ih =>
      rw [Nat.toDigits_eq_if (by decide)]
      split
      · rename_i hlt
        exact hone n hlt
      · rename_i hge
        intro hhead
        have hpos : 0 < n / 10 := Nat.div_pos (Nat.not_lt.1 hge) (by decide)
        have hfront : (Nat.toDigits 10 (n / 10)).head? = some '0' := by
          cases hdigits : Nat.toDigits 10 (n / 10) with
          | nil => exact absurd hdigits Nat.toDigits_ne_nil
          | cons c rest => simpa [hdigits] using hhead
        -- A front part that starts with 0 is 0, and then there is no front part.
        have hzero := ih (n / 10) (Nat.div_lt_self (by omega) (by decide)) hfront
        have hvalue := congrArg (fun ds => Nat.ofDigitChars 10 ds 0) hzero
        simp only [Nat.ofDigitChars_ten_toDigits] at hvalue
        exact absurd hvalue (Nat.ne_of_gt hpos)

theorem not_isDigit_of_stops {behind : List Char} (h : Stops behind) :
    behind.takeWhile Char.isDigit = [] ∧ behind.dropWhile Char.isDigit = behind := by
  cases behind with
  | nil => exact ⟨rfl, rfl⟩
  | cons c rest =>
    have hc : c.isDigit = false := by
      rcases h with rfl | rfl | rfl <;> decide
    simp [hc]

theorem readDigits_append {ds behind : List Char} (hds : ∀ c ∈ ds, c.isDigit = true)
    (h : behind.takeWhile Char.isDigit = [] ∧ behind.dropWhile Char.isDigit = behind) :
    readDigits (ds ++ behind) = (ds, behind) := by
  rw [readDigits, List.takeWhile_append_of_pos hds, List.dropWhile_append_of_pos hds, h.1, h.2,
    List.append_nil]

/-- The point and the digits behind it, if there are any. -/
def point (fs : List Char) : List Char :=
  if fs = [] then [] else '.' :: fs

theorem point_not_digit (fs : List Char) {behind : List Char} (h : Stops behind) :
    (point fs ++ behind).takeWhile Char.isDigit = [] ∧
      (point fs ++ behind).dropWhile Char.isDigit = point fs ++ behind := by
  rw [point]
  split
  · exact not_isDigit_of_stops h
  · exact ⟨rfl, rfl⟩

theorem readWhole_append {ds behind : List Char} (hds : IsWhole ds)
    (h : behind.takeWhile Char.isDigit = [] ∧ behind.dropWhile Char.isDigit = behind) :
    readWhole (ds ++ behind) = some (ds, behind) := by
  cases ds with
  | nil => exact absurd rfl hds.nonempty
  | cons c rest =>
    rw [List.cons_append, readWhole]
    by_cases hzero : c = '0'
    · have honly : c :: rest = ['0'] := hds.leading (by simp [hzero])
      obtain rfl : rest = [] := (List.cons.inj honly).2
      rw [if_pos hzero]
      rfl
    · have hread := readDigits_append hds.digits h
      rw [List.cons_append] at hread
      rw [if_neg hzero, readDigits1, hread]
      simp

theorem readFraction_point {fs behind : List Char} (hfs : ∀ c ∈ fs, c.isDigit = true)
    (h : Stops behind) : readFraction (point fs ++ behind) = some (fs, behind) := by
  rw [point]
  split
  · rename_i hnil
    rw [hnil, List.nil_append]
    cases behind with
    | nil => rfl
    | cons c rest =>
      have hc : ¬ c = '.' := by
        rcases h with rfl | rfl | rfl <;> decide
      rw [readFraction, if_neg hc]
  · rename_i hfs'
    rw [List.cons_append, readFraction, if_pos rfl, readDigits1,
      readDigits_append hfs (not_isDigit_of_stops h), if_neg hfs']

theorem readExponent_stops {behind : List Char} (h : Stops behind) :
    readExponent behind = some (0, behind) := by
  cases behind with
  | nil => rfl
  | cons c rest =>
    have hc : ¬ (c = 'e' ∨ c = 'E') := by
      rcases h with rfl | rfl | rfl <;> decide
    rw [readExponent, if_neg hc]

/-- The text with a minus in front, or without. -/
def signed (negative : Bool) (text : List Char) : List Char :=
  if negative then '-' :: text else text

theorem readMinus_signed (negative : Bool) {text : List Char} (h : text.head? ≠ some '-') :
    readMinus (signed negative text) = (negative, text) := by
  cases negative with
  | true => rfl
  | false =>
    cases text with
    | nil => rfl
    | cons c rest =>
      have hc : ¬ c = '-' := by
        rintro rfl
        exact h rfl
      rw [signed, if_neg (by decide), readMinus, if_neg hc]

variable {ds fs : List Char}

/-- The head of an integer part is a digit, so it is nothing else that a value starts with. -/
theorem IsWhole.exists_cons (h : IsWhole ds) :
    ∃ c rest, ds = c :: rest ∧ c.isDigit = true := by
  cases ds with
  | nil => exact absurd rfl h.nonempty
  | cons c rest => exact ⟨c, rest, rfl, h.digits c List.mem_cons_self⟩

theorem readNumber_decimal (negative : Bool) (hds : IsWhole ds)
    (hfs : ∀ c ∈ fs, c.isDigit = true) {behind : List Char} (h : Stops behind) :
    readNumber (signed negative (ds ++ (point fs ++ behind))) =
      some (decimal negative ds fs 0, behind) := by
  rcases hds.exists_cons with ⟨c, rest, hcons, hdigit⟩
  have hhead : (ds ++ (point fs ++ behind)).head? ≠ some '-' := by
    rw [hcons]
    intro hc
    rw [Option.some.inj hc] at hdigit
    exact absurd hdigit (by decide)
  rw [readNumber, readMinus_signed negative hhead]
  simp only [readWhole_append hds (point_not_digit fs h), readFraction_point hfs h,
    readExponent_stops h, Option.map_some]

theorem opens_signed (negative : Bool) (hds : IsWhole ds) (more : List Char) :
    Opens (signed negative (ds ++ more)) := by
  rcases hds.exists_cons with ⟨c, rest, rfl, hdigit⟩
  cases negative with
  | true => exact ⟨by decide, by decide, by decide, by decide⟩
  | false =>
    have hother : ∀ d : Char, d.isDigit = false → c ≠ d := by
      rintro d hd rfl
      rw [hd] at hdigit
      cases hdigit
    refine ⟨?_, hother _ (by decide), hother _ (by decide), hother _ (by decide)⟩
    simp [isSpace, hother ' ' (by decide), hother '\t' (by decide), hother '\n' (by decide),
      hother '\r' (by decide)]

/-- What starts like a number is read as one. -/
theorem readScalar_signed (negative : Bool) (hds : IsWhole ds) (more : List Char) :
    readScalar (signed negative (ds ++ more)) =
      (readNumber (signed negative (ds ++ more))).map fun read => (.number read.1, read.2) := by
  rcases hds.exists_cons with ⟨c, rest, rfl, hdigit⟩
  cases negative with
  | true => rfl
  | false =>
    have hother : ∀ d : Char, d.isDigit = false → c ≠ d := by
      rintro d hd rfl
      rw [hd] at hdigit
      cases hdigit
    rw [signed, if_neg (by decide), List.cons_append, readScalar]
    simp only [if_neg (hother quote (by decide)), if_neg (hother 'n' (by decide)),
      if_neg (hother 't' (by decide)), if_neg (hother 'f' (by decide))]

/-- A number with two digits behind the point is its size in hundredths, divided. -/
theorem decimal_hundredths (negative : Bool) (n : Nat) :
    decimal negative (Nat.toDigits 10 (n / 100)) [(n / 10 % 10).digitChar, (n % 10).digitChar] 0 =
      if negative then -((n : ℚ) / 100) else (n : ℚ) / 100 := by
  have hvalue : Nat.ofDigitChars 10
      (Nat.toDigits 10 (n / 100) ++ [(n / 10 % 10).digitChar, (n % 10).digitChar]) 0 = n := by
    rw [Nat.ofDigitChars_append, Nat.ofDigitChars_ten_toDigits,
      Nat.ofDigitChars_cons_digitChar_of_lt_ten (Nat.mod_lt _ (by decide)),
      Nat.ofDigitChars_cons_digitChar_of_lt_ten (Nat.mod_lt _ (by decide)), Nat.ofDigitChars_nil]
    omega
  have hscale : (10 : ℚ) ^ ([(n / 10 % 10).digitChar, (n % 10).digitChar] : List Char).length =
      100 := by
    rw [List.length_cons, List.length_singleton]
    rfl
  rw [decimal, hvalue, hscale, zpow_zero, mul_one]

end Numbers

/-! ## Lexemes of all kinds -/

namespace Lexeme

/-- A number in decimal notation. -/
def number (negative : Bool) (ds fs : List Char) (hds : IsWhole ds)
    (hfs : ∀ c ∈ fs, c.isDigit = true) : Lexeme where
  text := signed negative (ds ++ point fs)
  meaning := some (.number (decimal negative ds fs 0))
  opens := opens_signed negative hds _
  reads := by
    intro behind h
    have htext : signed negative (ds ++ point fs) ++ behind =
        signed negative (ds ++ (point fs ++ behind)) := by
      cases negative <;> simp [signed]
    rw [htext, readScalar_signed negative hds, readNumber_decimal negative hds hfs h]
    rfl

def integer (n : Int) : Lexeme :=
  number (decide (n < 0)) (Nat.toDigits 10 n.natAbs) [] (isWhole_toDigits _) (by simp)

def bool (b : Bool) : Lexeme where
  text := if b then ['t', 'r', 'u', 'e'] else ['f', 'a', 'l', 's', 'e']
  meaning := some (.bool b)
  opens := by cases b <;> exact ⟨by decide, by decide, by decide, by decide⟩
  reads := by
    intro behind _
    cases b <;> simp [readScalar, readLiteral, quote]

def null : Lexeme where
  text := ['n', 'u', 'l', 'l']
  meaning := some .null
  opens := ⟨by decide, by decide, by decide, by decide⟩
  reads := by
    intro behind _
    simp [readScalar, readLiteral, quote]

/-- A string with this between its quotation marks. -/
def quoted (inside text : List Char)
    (h : ∀ behind, readString (inside ++ quote :: behind) = some (text, behind)) : Lexeme where
  text := quote :: (inside ++ [quote])
  meaning := some (.string text)
  opens := ⟨by decide, by decide, by decide, by decide⟩
  reads := by
    intro behind _
    simp [readScalar, h]

/-- A string that needs no escapes. -/
def word (name : Name) : Lexeme :=
  quoted name.text name.text (readString_plain name)

/-- A word that no value starts with. -/
def broken (text : List Char) (opens : Opens text)
    (h : ∀ behind, readScalar (text ++ behind) = none) : Lexeme where
  text := text
  meaning := none
  opens := opens
  reads := fun behind _ => h behind

theorem integer_meaning (n : Int) : (integer n).meaning = some (.number n) := by
  have hdecimal : decimal (decide (n < 0)) (Nat.toDigits 10 n.natAbs) [] 0 = (n : ℚ) := by
    simp only [decimal, List.append_nil, Nat.ofDigitChars_ten_toDigits, List.length_nil, pow_zero,
      div_one, zpow_zero, mul_one, decide_eq_true_eq]
    split
    · rename_i hneg
      rw [← Int.cast_natCast, Int.ofNat_natAbs_of_nonpos (Int.le_of_lt hneg), Int.cast_neg, neg_neg]
    · rename_i hnonneg
      rw [← Int.cast_natCast, Int.natAbs_of_nonneg (Int.not_lt.1 hnonneg)]
  exact congrArg (fun q => some (Json.number q)) hdecimal

/-- The text of an integer is the usual one. -/
theorem integer_text (n : Int) : (integer n).text = (toString n).toList := by
  simp only [integer, number, point, if_true, List.append_nil, Int.toString_eq_repr,
    Int.repr_eq_if]
  by_cases hneg : n < 0
  · have habs : (-n).toNat = n.natAbs := by omega
    simp [signed, hneg, Int.not_le.2 hneg, habs, Nat.toList_repr]
  · have habs : n.toNat = n.natAbs := by omega
    simp [signed, hneg, Int.not_lt.1 hneg, habs, Nat.toList_repr]

end Lexeme

end Json
end Crossover
