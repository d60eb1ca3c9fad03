import Mathlib.Data.List.Basic
import Mathlib.Data.Nat.Digits.Defs

/-!
# Http — responses that say how long they are

`render` is a response of HTTP/1.1 with its headers and a body, `read` what a client makes of the
bytes that have come in so far: it waits for more, has a whole response, or gives up.  More bytes
never change what has been read (`Reading.append`), so a response that states its length is read
back whole, and no proper beginning of it is taken for a response (`Framed.read_of_proper`).
-/

namespace Crossover
namespace Http

structure Response where
  status : List Char
  headers : List (List Char × List Char)
  body : List Char
  deriving DecidableEq, Repr

def crlf : List Char :=
  ['\r', '\n']

def version : List Char :=
  "HTTP/1.1 ".toList

def headerLine (header : List Char × List Char) : List Char :=
  header.1 ++ ':' :: ' ' :: header.2

def Response.lines (r : Response) : List (List Char) :=
  (version ++ r.status) :: r.headers.map headerLine

def Response.render (r : Response) : List Char :=
  r.lines.flatMap (fun line => line ++ crlf) ++ crlf ++ r.body

/-! ## Reading -/

/-- The lines up to the empty one, and what comes behind it; `line` is what the present line has so
far, in reverse. -/
def readHead (line : List Char) : List Char → Option (List (List Char) × List Char)
  | [] => none
  | '\r' :: '\n' :: rest =>
      if line = [] then some ([], rest)
      else (readHead [] rest).map fun head => (line.reverse :: head.1, head.2)
  | c :: rest => readHead (c :: line) rest

def readHeader (line : List Char) : Option (List Char × List Char) :=
  match line.dropWhile (fun c => c != ':') with
  | [] => none
  | _ :: value => some (line.takeWhile (fun c => c != ':'), value.dropWhile fun c => c == ' ')

def lengthName : List Char :=
  "Content-Length".toList

def contentLength (headers : List (List Char × List Char)) : Option Nat :=
  (headers.find? fun header => header.1 == lengthName).bind fun header =>
    if header.2 ≠ [] ∧ header.2.all Char.isDigit then some (Nat.ofDigitChars 10 header.2 0)
    else none

/-- The status, the headers and the length of the body. -/
def readLines : List (List Char) → Option (List Char × List (List Char × List Char) × Nat)
  | [] => none
  | line :: lines =>
      if version.isPrefixOf line then
        (lines.mapM readHeader).bind fun headers =>
          (contentLength headers).map fun length =>
            (line.drop version.length, headers, length)
      else none

inductive Reading
  /-- More has to come. -/
  | more
  | bad
  /-- A response, and what has come in behind it. -/
  | complete (r : Response) (rest : List Char)
  deriving DecidableEq, Repr

def read (text : List Char) : Reading :=
  match readHead [] text with
  | none => .more
  | some (lines, rest) =>
      match readLines lines with
      | none => .bad
      | some (status, headers, length) =>
          if rest.length < length then .more
          else
            .complete { status := status, headers := headers, body := rest.take length }
              (rest.drop length)

/-! ## More bytes -/

/-- What has been read once the bytes behind have come in too. -/
def Reading.append (behind : List Char) : Reading → Reading
  | .more => .more
  | .bad => .bad
  | .complete r rest => .complete r (rest ++ behind)

theorem readHead_append {text : List Char} (line behind : List Char)
    {head : List (List Char) × List Char} (h : readHead line text = some head) :
    readHead line (text ++ behind) = some (head.1, head.2 ++ behind) := by
  induction line, text using readHead.induct generalizing head with
  | case1 line => cases h
  | case2 rest =>
    simp only [readHead, if_true, Option.some.injEq] at h
    simp [readHead, ← h]
  | case3 line rest hline ih =>
    simp only [readHead, if_neg hline] at h
    rcases Option.map_eq_some_iff.1 h with ⟨inner, hinner, rfl⟩
    simp only [List.cons_append, readHead, if_neg hline, ih hinner, Option.map_some]
  | case4 line c rest hother ih =>
    rw [readHead.eq_3 _ _ _ hother] at h
    by_cases hsplit : c = '\r' ∧ rest = []
    · -- A line feed may still come.
      rw [hsplit.2] at h
      cases h
    · have hstill : ∀ more, c = '\r' → rest ++ behind = '\n' :: more → False := by
        intro more hc heq
        cases rest with
        | nil => exact hsplit ⟨hc, rfl⟩
        | cons d rest =>
          injection heq with hd _
          exact hother rest hc (by rw [hd])
      rw [List.cons_append, readHead.eq_3 _ _ _ hstill]
      exact ih h

/-- More bytes change nothing about a reading that has come to an end. -/
theorem read_append {text : List Char} (behind : List Char) (h : read text ≠ .more) :
    read (text ++ behind) = (read text).append behind := by
  cases hhead : readHead [] text with
  | none => simp [read, hhead] at h
  | some head =>
    have happend := readHead_append [] behind hhead
    cases hlines : readLines head.1 with
    | none => simp [read, hhead, happend, hlines, Reading.append]
    | some message =>
      by_cases hshort : head.2.length < message.2.2
      · simp [read, hhead, hlines, hshort] at h
      · have henough : ¬ (head.2 ++ behind).length < message.2.2 := by
          rw [List.length_append]
          omega
        have hle := Nat.not_lt.1 hshort
        simp only [read, hhead, happend, hlines, if_neg hshort, if_neg henough, Reading.append,
          List.take_append_of_le_length hle, List.drop_append_of_le_length hle]

/-! ## A response that states its length -/

abbrev Plain (text : List Char) : Prop :=
  '\r' ∉ text

structure PlainHeader (header : List Char × List Char) : Prop where
  name : Plain header.1
  colon : ':' ∉ header.1
  value : Plain header.2
  space : header.2.head? ≠ some ' '

instance (header : List Char × List Char) : Decidable (PlainHeader header) :=
  decidable_of_iff (Plain header.1 ∧ ':' ∉ header.1 ∧ Plain header.2 ∧ header.2.head? ≠ some ' ')
    ⟨fun h => ⟨h.1, h.2.1, h.2.2.1, h.2.2.2⟩, fun h => ⟨h.name, h.colon, h.value, h.space⟩⟩

/-- No line of the head is broken, and one header says how long the body is. -/
structure Framed (r : Response) : Prop where
  status : Plain r.status
  headers : ∀ header ∈ r.headers, PlainHeader header
  length : contentLength r.headers = some r.body.length

theorem readHead_line {line : List Char} (hline : Plain line) (acc rest : List Char)
    (hne : acc ≠ [] ∨ line ≠ []) :
    readHead acc (line ++ (crlf ++ rest)) =
      (readHead [] rest).map fun head => ((acc.reverse ++ line) :: head.1, head.2) := by
  induction line generalizing acc with
  | nil =>
    have hacc : acc ≠ [] := hne.resolve_right (by simp)
    simp [crlf, readHead, hacc]
  | cons c line ih =>
    have hc : c ≠ '\r' := fun heq => hline (by simp [heq])
    have hrest : Plain line := fun hmem => hline (List.mem_cons_of_mem _ hmem)
    rw [List.cons_append, readHead.eq_3 _ _ _ (fun _ heq _ => hc heq),
      ih hrest (c :: acc) (Or.inl (by simp))]
    simp

theorem readHead_lines {lines : List (List Char)} (h : ∀ line ∈ lines, Plain line ∧ line ≠ [])
    (body : List Char) :
    readHead [] (lines.flatMap (fun line => line ++ crlf) ++ (crlf ++ body)) =
      some (lines, body) := by
  induction lines with
  | nil => simp [crlf, readHead]
  | cons line lines ih =>
    rcases List.forall_mem_cons.1 h with ⟨hline, hlines⟩
    rw [List.flatMap_cons, List.append_assoc, List.append_assoc,
      readHead_line hline.1 [] _ (Or.inr hline.2), ih hlines]
    rfl

theorem readHeader_headerLine {header : List Char × List Char} (h : PlainHeader header) :
    readHeader (headerLine header) = some header := by
  have hname : ∀ c ∈ header.1, (c != ':') = true := by
    intro c hc
    rw [bne_iff_ne]
    rintro rfl
    exact h.colon hc
  have hvalue : (' ' :: header.2).dropWhile (fun c => c == ' ') = header.2 := by
    cases hv : header.2 with
    | nil => rfl
    | cons d value =>
      have hd : (d == ' ') = false := by
        rw [beq_eq_false_iff_ne]
        rintro rfl
        exact h.space (by rw [hv]; rfl)
      simp [hd]
  rw [readHeader, headerLine, List.dropWhile_append_of_pos hname,
    List.takeWhile_append_of_pos hname]
  simp [hvalue]

theorem mapM_readHeader {headers : List (List Char × List Char)}
    (h : ∀ header ∈ headers, PlainHeader header) :
    (headers.map headerLine).mapM readHeader = some headers := by
  induction headers with
  | nil => rfl
  | cons header headers ih =>
    rcases List.forall_mem_cons.1 h with ⟨hheader, hheaders⟩
    simp [List.mapM_cons, readHeader_headerLine hheader, ih hheaders]

theorem plain_append {text more : List Char} (h : Plain text) (hmore : Plain more) :
    Plain (text ++ more) := by
  intro hmem
  rcases List.mem_append.1 hmem with hleft | hright
  · exact h hleft
  · exact hmore hright

theorem Framed.lines {r : Response} (h : Framed r) :
    ∀ line ∈ r.lines, Plain line ∧ line ≠ [] := by
  intro line hline
  rcases List.mem_cons.1 hline with rfl | hline
  · have hversion : '\r' ∉ version := by decide
    exact ⟨plain_append hversion h.status, List.append_ne_nil_of_left_ne_nil (by decide) _⟩
  · rcases List.mem_map.1 hline with ⟨header, hheader, rfl⟩
    have hplain := h.headers header hheader
    refine ⟨plain_append hplain.name ?_, by simp [headerLine]⟩
    intro hmem
    simp only [List.mem_cons] at hmem
    rcases hmem with hc | hc | hc
    · exact absurd hc (by decide)
    · exact absurd hc (by decide)
    · exact hplain.value hc

/-- It is read back, whatever comes in behind it. -/
theorem Framed.read_render {r : Response} (h : Framed r) (behind : List Char) :
    read (r.render ++ behind) = .complete r behind := by
  have hhead := readHead_lines h.lines (r.body ++ behind)
  have hlines : readLines r.lines = some (r.status, r.headers, r.body.length) := by
    have hversion : version.isPrefixOf (version ++ r.status) = true :=
      List.isPrefixOf_iff_prefix.2 (List.prefix_append _ _)
    simp [Response.lines, readLines, hversion, mapM_readHeader h.headers, h.length]
  rw [Response.render, List.append_assoc, List.append_assoc, read, hhead]
  simp [hlines]

/-- No proper beginning of it is taken for a response. -/
theorem Framed.read_of_proper {r : Response} (h : Framed r) {text : List Char}
    (hbegins : text <+: r.render) (hproper : text ≠ r.render) : read text = .more := by
  rcases hbegins with ⟨behind, hsplit⟩
  by_contra hmore
  have hwhole := h.read_render []
  rw [List.append_nil, ← hsplit, read_append behind hmore] at hwhole
  cases hread : read text with
  | more => exact hmore hread
  | bad =>
    rw [hread] at hwhole
    cases hwhole
  | complete r' rest =>
    rw [hread, Reading.append] at hwhole
    injection hwhole with _ hrest
    have hbehind : behind = [] := (List.append_eq_nil_iff.1 hrest).2
    rw [hbehind, List.append_nil] at hsplit
    exact hproper hsplit

end Http
end Crossover
