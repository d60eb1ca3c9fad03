import Crossover.Lib.Binary32
import Crossover.Lib.Json
import Crossover.Server.Anchor

/-!
# Status — the document of the status endpoint

`BuildJson` puts the document together by hand from a `StatusSnapshot`.  It is a rendered draft
whatever the snapshot is, and the only lexemes that may be broken are the coordinates: the server
stores the floats of a client as they come, and a stream prints those that are not finite as words.
-/

namespace Crossover
namespace Server

open Wire History Binary32

/-! ## The snapshot -/

namespace StatusSnapshot

structure Entry where
  networkId : Int32
  address : List Char
  spawned : Bool
  position : Vec3
  connectedForMs : Int
  deriving DecidableEq, Repr

end StatusSnapshot

structure StatusSnapshot where
  running : Bool := false
  playerCount : Int32 := 0
  maxPlayers : Int32 := 0
  gamePort : UInt16 := 0
  uptimeMs : Int := 0
  anchor : Vec3 := {}
  anchorKnown : Bool := false
  players : List StatusSnapshot.Entry := []
  deriving DecidableEq, Repr

/-- Whose position the document gives as the rendezvous, if any. -/
def RelayServer.rendezvous (s : RelayServer) : Option Vec3 :=
  match anchorPlayer s.players with
  | some anchor => some anchor.position
  | none => if s.persistedAnchorKnown then some s.persistedAnchor else none

/-- `Snapshot`, given `SystemAddress::ToString(true)` of the network library.  Both readings of the
clock are inputs. -/
def RelayServer.snapshot (toString : SystemAddress → List Char) (s : RelayServer)
    (uptimeNowMs nowMs : Int) : StatusSnapshot where
  running := s.peer
  maxPlayers := s.config.maxPlayers
  gamePort := s.config.gamePort
  uptimeMs := uptimeNowMs - s.startedAtMs
  playerCount := Int32.ofNat s.players.length
  anchor := s.rendezvous.getD {}
  anchorKnown := s.rendezvous.isSome
  players := s.players.map fun p =>
    { networkId := p.networkId
      address := toString p.address
      spawned := p.spawned
      position := p.position
      connectedForMs := nowMs - p.connectedAtMs }

/-! ## Floats in fixed notation -/

/-- The size in hundredths, rounded to the nearest and on a tie to the even one. -/
def hundredths (bits : UInt32) : Nat :=
  let whole := floatSize bits * 100 / 2 ^ 149
  let twice := 2 * (floatSize bits * 100 % 2 ^ 149)
  if twice > 2 ^ 149 ∨ twice = 2 ^ 149 ∧ whole % 2 = 1 then whole + 1 else whole

/-- A float as a stream with `fixed` and `precision(2)` prints it. -/
def fixed2 (bits : UInt32) : List Char :=
  let text :=
    if exponentBits bits = 255 then
      if mantissaBits bits = 0 then ['i', 'n', 'f'] else ['n', 'a', 'n']
    else
      let n := hundredths bits
      Nat.toDigits 10 (n / 100) ++ ['.', (n / 10 % 10).digitChar, (n % 10).digitChar]
  if signBit bits then '-' :: text else text

example : fixed2 0xC2F6E979 = "-123.46".toList ∧ fixed2 0x3E000000 = "0.12".toList := by
  decide

/-! ## The document -/

def jsonEscape : List Char → List Char
  | [] => []
  | c :: s =>
      if c = '"' ∨ c = '\\' then '\\' :: c :: jsonEscape s
      else if c = '\n' then '\\' :: 'n' :: jsonEscape s
      else if c.toNat < 0x20 then jsonEscape s
      else c :: jsonEscape s

/-- An integer as a stream prints it. -/
def decimalText (n : Int) : List Char :=
  (toString n).toList

/-- The object `BuildJson` writes for a position, once for the rendezvous and once a player. -/
def positionJson (v : Vec3) : List Char :=
  "\x7b\"x\":".toList ++ fixed2 v.x ++ ",\"y\":".toList ++ fixed2 v.y ++
    ",\"z\":".toList ++ fixed2 v.z ++ "\x7d".toList

def entryJson (p : StatusSnapshot.Entry) : List Char :=
  "\x7b\"networkId\":".toList ++ decimalText p.networkId.toInt ++
    ",\"address\":\"".toList ++ jsonEscape p.address ++ "\"".toList ++
    ",\"inWorld\":".toList ++ (if p.spawned then "true" else "false").toList ++
    ",\"connectedForSeconds\":".toList ++ decimalText (p.connectedForMs.tdiv 1000) ++
    ",\"position\":".toList ++ positionJson p.position ++ "\x7d".toList

/-- The loop over the roster: from the second entry on there is a comma in front. -/
def rosterJson (players : List StatusSnapshot.Entry) : List Char :=
  players.zipIdx.flatMap fun entry => (if entry.2 = 0 then [] else [',']) ++ entryJson entry.1

def buildJson (s : StatusSnapshot) (tunnelConnections : Int32) (tunnelEnabled : Bool) :
    List Char :=
  "\x7b\"status\":\"".toList ++ (if s.running then "running" else "stopped").toList ++
    "\"".toList ++
    ",\"uptimeSeconds\":".toList ++ decimalText (s.uptimeMs.tdiv 1000) ++
    ",\"players\":".toList ++ decimalText s.playerCount.toInt ++
    ",\"maxPlayers\":".toList ++ decimalText s.maxPlayers.toInt ++
    ",\"transport\":\"".toList ++ (if tunnelEnabled then "tcp-tunnel" else "direct-udp").toList ++
    "\"".toList ++
    (if tunnelEnabled then ",\"tunnelConnections\":".toList ++ decimalText tunnelConnections.toInt
      else []) ++
    (if s.anchorKnown then ",\"rendezvous\":".toList ++ positionJson s.anchor
      else ",\"rendezvous\":null".toList) ++
    ",\"roster\":[".toList ++ rosterJson s.players ++ "]\x7d".toList

/-! ## The lexemes of the document -/

section Lexemes

open Json

variable {bits : UInt32}

/-- The digits of a finite coordinate behind the point. -/
def cents (bits : UInt32) : List Char :=
  [(hundredths bits / 10 % 10).digitChar, (hundredths bits % 10).digitChar]

theorem isDigit_of_mem_cents : ∀ c ∈ cents bits, c.isDigit = true := by
  intro c hc
  have hdigit : ∀ n, (n % 10).digitChar.isDigit = true := by
    intro n
    rw [Nat.isDigit_digitChar, decide_eq_true_eq]
    exact Nat.mod_lt _ (by decide)
  rcases List.mem_cons.1 hc with rfl | hc
  · exact hdigit _
  · rw [List.mem_singleton.1 hc]
    exact hdigit _

/-- What a finite coordinate is printed as. -/
def finiteCoordinate (bits : UInt32) : Lexeme :=
  .number (signBit bits) (Nat.toDigits 10 (hundredths bits / 100)) (cents bits)
    (isWhole_toDigits _) isDigit_of_mem_cents

/-- The number that is printed for a finite float. -/
def coordinateValue (bits : UInt32) : ℚ :=
  if signBit bits then -((hundredths bits : ℚ) / 100) else (hundredths bits : ℚ) / 100

theorem finiteCoordinate_meaning :
    (finiteCoordinate bits).meaning = some (.number (coordinateValue bits)) :=
  congrArg (fun q => some (Json.number q)) (decimal_hundredths (signBit bits) (hundredths bits))

theorem finiteCoordinate_text (h : FloatFinite bits) :
    (finiteCoordinate bits).text = fixed2 bits := by
  simp only [finiteCoordinate, Lexeme.number, fixed2, if_neg h]
  rfl

/-- The words for the floats that are not finite. -/
theorem fixed2_of_not_finite (h : ¬ FloatFinite bits) :
    fixed2 bits ∈
      [['i', 'n', 'f'], ['n', 'a', 'n'], ['-', 'i', 'n', 'f'], ['-', 'n', 'a', 'n']] := by
  simp only [fixed2, if_pos (not_not.1 h)]
  by_cases hinfinite : mantissaBits bits = 0
  · cases signBit bits <;> simp [hinfinite]
  · cases signBit bits <;> simp [hinfinite]

/-- None of them is a value, whatever stands behind it. -/
theorem unreadable_of_not_finite (h : ¬ FloatFinite bits) :
    Opens (fixed2 bits) ∧ ∀ behind, readScalar (fixed2 bits ++ behind) = none := by
  have hword := fixed2_of_not_finite h
  generalize fixed2 bits = word at hword
  simp only [List.mem_cons, List.not_mem_nil, or_false] at hword
  rcases hword with rfl | rfl | rfl | rfl
  all_goals
    refine ⟨⟨by decide, by decide, by decide, by decide⟩, ?_⟩
    intro behind
    simp [readScalar, readLiteral, readNumber, readMinus, readWhole, readDigits1, readDigits, quote]

/-- A coordinate as the document has it. -/
def coordinate (bits : UInt32) : Lexeme :=
  if h : FloatFinite bits then finiteCoordinate bits
  else .broken (fixed2 bits) (unreadable_of_not_finite h).1 (unreadable_of_not_finite h).2

theorem coordinate_text (bits : UInt32) : (coordinate bits).text = fixed2 bits := by
  rw [coordinate]
  split
  · rename_i h
    exact finiteCoordinate_text h
  · rfl

theorem coordinate_meaning (bits : UInt32) :
    (coordinate bits).meaning =
      if FloatFinite bits then some (.number (coordinateValue bits)) else none := by
  rw [coordinate]
  split
  · exact finiteCoordinate_meaning
  · rfl

/-- What `JsonEscape` leaves of a text. -/
def printable (text : List Char) : List Char :=
  text.filter fun c => c == '\n' || decide (0x20 ≤ c.toNat)

/-- Reading undoes the escapes. -/
theorem readUnits_jsonEscape (text behind : List Char) :
    readUnits (jsonEscape text ++ quote :: behind) =
      some ((printable text).map Char.toNat, behind) := by
  induction text with
  | nil => exact readUnits_quote behind
  | cons c text ih =>
    rw [jsonEscape]
    by_cases hescape : c = '"' ∨ c = '\\'
    · have hmeant : c ≠ 'u' ∧ escaped c = some c.toNat ∧ 0x20 ≤ c.toNat := by
        rcases hescape with rfl | rfl <;> decide
      have hkept : printable (c :: text) = c :: printable text :=
        List.filter_cons_of_pos (by simp [hmeant.2.2])
      rw [if_pos hescape, List.cons_append, List.cons_append]
      exact (readUnits_escape hmeant.1 hmeant.2.1 _).trans (by rw [ih, hkept]; rfl)
    · rw [if_neg hescape]
      by_cases hnewline : c = '\n'
      · have hkept : printable (c :: text) = c :: printable text :=
          List.filter_cons_of_pos (by simp [hnewline])
        rw [if_pos hnewline, List.cons_append, List.cons_append]
        exact (readUnits_escape (by decide) (show escaped 'n' = some 10 by decide) _).trans
          (by rw [ih, hkept, hnewline]; rfl)
      · rw [if_neg hnewline]
        by_cases hcontrol : c.toNat < 0x20
        · have hdropped : printable (c :: text) = printable text :=
            List.filter_cons_of_neg (by simp [hnewline, hcontrol])
          rw [if_pos hcontrol, ih, hdropped]
        · have hplain : 0x20 ≤ c.toNat := Nat.not_lt.1 hcontrol
          have hkept : printable (c :: text) = c :: printable text :=
            List.filter_cons_of_pos (by simp [hplain])
          rcases not_or.1 hescape with ⟨hquote, hbackslash⟩
          rw [if_neg hcontrol, List.cons_append, readUnits_cons hquote hbackslash hplain, ih, hkept]
          rfl

theorem readString_jsonEscape (text behind : List Char) :
    readString (jsonEscape text ++ quote :: behind) = some (printable text, behind) := by
  rw [readString, readUnits_jsonEscape, Option.map_some, characters_toNat]

end Lexemes

/-! ## The document as a draft -/

section Drafts

open Json

/-- A name of the document. -/
def label (text : String) (plain : text.toList.all isPlain = true := by decide) : Name :=
  ⟨text.toList, plain⟩

def positionDraft (v : Vec3) : Draft :=
  .object [(label "x", .lexeme (coordinate v.x)), (label "y", .lexeme (coordinate v.y)),
    (label "z", .lexeme (coordinate v.z))]

def entryDraft (p : StatusSnapshot.Entry) : Draft :=
  .object [(label "networkId", .lexeme (.integer p.networkId.toInt)),
    (label "address", .lexeme (.quoted (jsonEscape p.address) (printable p.address)
      (readString_jsonEscape p.address))),
    (label "inWorld", .lexeme (.bool p.spawned)),
    (label "connectedForSeconds", .lexeme (.integer (p.connectedForMs.tdiv 1000))),
    (label "position", positionDraft p.position)]

def statusDraft (s : StatusSnapshot) (tunnelConnections : Int32) (tunnelEnabled : Bool) : Draft :=
  .object ([(label "status", .lexeme (.word (if s.running then label "running" else
      label "stopped"))),
    (label "uptimeSeconds", .lexeme (.integer (s.uptimeMs.tdiv 1000))),
    (label "players", .lexeme (.integer s.playerCount.toInt)),
    (label "maxPlayers", .lexeme (.integer s.maxPlayers.toInt)),
    (label "transport", .lexeme (.word (if tunnelEnabled then label "tcp-tunnel" else
      label "direct-udp")))] ++
    (if tunnelEnabled then
      [(label "tunnelConnections", .lexeme (.integer tunnelConnections.toInt))]
    else []) ++
    [(label "rendezvous", if s.anchorKnown then positionDraft s.anchor else .lexeme .null),
    (label "roster", .array (s.players.map entryDraft))])

/-! ### Its text -/

theorem label_text (text : String) (plain) : (label text plain).text = text.toList :=
  rfl

theorem positionDraft_render (v : Vec3) : (positionDraft v).render = positionJson v := by
  rw [positionDraft, Draft.render, renderMembers_cons]
  unfold positionJson
  simp [renderMember, Draft.render, label_text, coordinate_text, quote]

theorem entryDraft_render (p : StatusSnapshot.Entry) : (entryDraft p).render = entryJson p := by
  rw [entryDraft, Draft.render, renderMembers_cons]
  unfold entryJson
  cases p.spawned
  all_goals
    simp [renderMember, Draft.render, label_text, positionDraft_render, Lexeme.integer_text,
      Lexeme.quoted, Lexeme.bool, decimalText, quote]

theorem rosterJson_eq (players : List StatusSnapshot.Entry) :
    rosterJson players = renderItems (players.map entryDraft) := by
  rw [renderItems_eq_flatMap, List.zipIdx_map, List.flatMap_map]
  simp only [rosterJson, Prod.map, entryDraft_render, id]

theorem statusDraft_render (s : StatusSnapshot) (tunnelConnections : Int32)
    (tunnelEnabled : Bool) :
    (statusDraft s tunnelConnections tunnelEnabled).render =
      buildJson s tunnelConnections tunnelEnabled := by
  rw [statusDraft, Draft.render]
  unfold buildJson
  rw [rosterJson_eq]
  -- The optional member, the null and the two words are the only choices.
  cases tunnelEnabled <;> cases s.anchorKnown <;> cases s.running
  all_goals
    simp [renderMembers_cons, renderMember, Draft.render, positionDraft_render, label_text,
      Lexeme.integer_text, decimalText, Lexeme.word, Lexeme.quoted, Lexeme.null, quote]

/-! ### What it says -/

/-- No coordinate of the position is a NaN or an infinity. -/
structure PositionFinite (v : Vec3) : Prop where
  x : FloatFinite v.x
  y : FloatFinite v.y
  z : FloatFinite v.z

instance (v : Vec3) : Decidable (PositionFinite v) :=
  decidable_of_iff (FloatFinite v.x ∧ FloatFinite v.y ∧ FloatFinite v.z)
    ⟨fun h => ⟨h.1, h.2.1, h.2.2⟩, fun h => ⟨h.x, h.y, h.z⟩⟩

/-- Every position that the document shows is finite. -/
structure StatusSnapshot.Finite (s : StatusSnapshot) : Prop where
  anchor : s.anchorKnown = true → PositionFinite s.anchor
  players : ∀ p ∈ s.players, PositionFinite p.position

def positionValue (v : Vec3) : Json :=
  .object [("x".toList, .number (coordinateValue v.x)), ("y".toList, .number (coordinateValue v.y)),
    ("z".toList, .number (coordinateValue v.z))]

def entryValue (p : StatusSnapshot.Entry) : Json :=
  .object [("networkId".toList, .number p.networkId.toInt),
    ("address".toList, .string (printable p.address)),
    ("inWorld".toList, .bool p.spawned),
    ("connectedForSeconds".toList, .number (p.connectedForMs.tdiv 1000)),
    ("position".toList, positionValue p.position)]

def statusValue (s : StatusSnapshot) (tunnelConnections : Int32) (tunnelEnabled : Bool) : Json :=
  .object ([("status".toList, .string (if s.running then "running" else "stopped").toList),
    ("uptimeSeconds".toList, .number (s.uptimeMs.tdiv 1000)),
    ("players".toList, .number s.playerCount.toInt),
    ("maxPlayers".toList, .number s.maxPlayers.toInt),
    ("transport".toList, .string (if tunnelEnabled then "tcp-tunnel" else "direct-udp").toList)] ++
    (if tunnelEnabled then
      [("tunnelConnections".toList, .number tunnelConnections.toInt)]
    else []) ++
    [("rendezvous".toList, if s.anchorKnown then positionValue s.anchor else .null),
    ("roster".toList, .array (s.players.map entryValue))])

theorem positionDraft_meaning (v : Vec3) :
    (positionDraft v).meaning = if PositionFinite v then some (positionValue v) else none := by
  have hiff : PositionFinite v ↔ FloatFinite v.x ∧ FloatFinite v.y ∧ FloatFinite v.z :=
    ⟨fun h => ⟨h.x, h.y, h.z⟩, fun h => ⟨h.1, h.2.1, h.2.2⟩⟩
  rw [positionDraft, positionValue]
  simp only [Draft.meaning, memberMeanings, coordinate_meaning, hiff]
  by_cases hx : FloatFinite v.x
  · by_cases hy : FloatFinite v.y
    · by_cases hz : FloatFinite v.z
      · simp [hx, hy, hz, label]
      · simp [hx, hy, hz]
    · simp [hx, hy]
  · simp [hx]

theorem entryDraft_meaning (p : StatusSnapshot.Entry) :
    (entryDraft p).meaning = if PositionFinite p.position then some (entryValue p) else none := by
  rw [entryDraft, entryValue]
  simp only [Draft.meaning, memberMeanings, Lexeme.integer_meaning, positionDraft_meaning]
  by_cases hposition : PositionFinite p.position
  · simp [hposition, label, Lexeme.quoted, Lexeme.bool]
  · simp [hposition, Lexeme.quoted, Lexeme.bool]

theorem statusDraft_meaning (s : StatusSnapshot) (tunnelConnections : Int32)
    (tunnelEnabled : Bool) (v : Json) :
    (statusDraft s tunnelConnections tunnelEnabled).meaning = some v ↔
      s.Finite ∧ v = statusValue s tunnelConnections tunnelEnabled := by
  have hroster := itemMeanings_map entryDraft_meaning s.players
  have hstatus : (if s.running then label "running" else label "stopped").text =
      (if s.running then "running" else "stopped").toList := by
    cases s.running <;> rfl
  have hiff : s.Finite ↔ (s.anchorKnown = true → PositionFinite s.anchor) ∧
      ∀ p ∈ s.players, PositionFinite p.position :=
    ⟨fun h => ⟨h.anchor, h.players⟩, fun h => ⟨h.1, h.2⟩⟩
  rw [hiff, eq_comm (a := v)]
  unfold statusDraft statusValue
  by_cases hplayers : ∀ p ∈ s.players, PositionFinite p.position
  · have hall := iff_true_intro hplayers
    rw [if_pos hplayers] at hroster
    cases tunnelEnabled <;> cases s.anchorKnown <;> by_cases hanchor : PositionFinite s.anchor
    all_goals
      simp [Draft.meaning, memberMeanings, Lexeme.integer_meaning, positionDraft_meaning, hroster,
        hanchor, Lexeme.word, Lexeme.quoted, Lexeme.null, label_text, hstatus, hall]
  · rw [if_neg hplayers] at hroster
    cases tunnelEnabled <;> cases s.anchorKnown <;> by_cases hanchor : PositionFinite s.anchor
    all_goals
      simp [Draft.meaning, memberMeanings, Lexeme.integer_meaning, positionDraft_meaning, hroster,
        hanchor, hplayers, Lexeme.word, Lexeme.quoted, Lexeme.null]

/-- The document is well formed exactly if all it shows is finite, and then says what the snapshot
does. -/
theorem parses_buildJson_iff (s : StatusSnapshot) (tunnelConnections : Int32)
    (tunnelEnabled : Bool) (v : Json) :
    Parses (buildJson s tunnelConnections tunnelEnabled) v ↔
      s.Finite ∧ v = statusValue s tunnelConnections tunnelEnabled := by
  rw [← statusDraft_render, parses_render_iff, statusDraft_meaning]

end Drafts

/-! ## The document of a server -/

section Documents

open Json

variable {toString : SystemAddress → List Char} {s : RelayServer}

/-- The coordinates of a position, as numbers. -/
structure ShowsPosition (v : Vec3) (shown : Json) : Prop where
  x : shown.field "x".toList = some (.number (coordinateValue v.x))
  y : shown.field "y".toList = some (.number (coordinateValue v.y))
  z : shown.field "z".toList = some (.number (coordinateValue v.z))

/-- The object of a player in the roster. -/
structure ShowsPlayer (toString : SystemAddress → List Char) (p : Player) (shown : Json) :
    Prop where
  networkId : shown.field "networkId".toList = some (.number p.networkId.toInt)
  address : shown.field "address".toList = some (.string (printable (toString p.address)))
  position : ∃ position, shown.field "position".toList = some position ∧
    ShowsPosition p.position position

/-- The number of the players, and the players in the order of the table. -/
structure ShowsServer (toString : SystemAddress → List Char) (s : RelayServer) (shown : Json) :
    Prop where
  object : ∃ members, shown = .object members
  players : shown.field "players".toList = some (.number s.players.length)
  roster : ∃ items, shown.field "roster".toList = some (.array items) ∧
    List.Forall₂ (ShowsPlayer toString) s.players items

/-- Whenever it is asked for and whatever the transport, the document is a JSON text and shows the
server as it is. -/
def ServesJson (toString : SystemAddress → List Char) (s : RelayServer) : Prop :=
  ∀ uptimeNowMs nowMs tunnelConnections tunnelEnabled, ∃ shown,
    Parses (buildJson (s.snapshot toString uptimeNowMs nowMs) tunnelConnections tunnelEnabled)
      shown ∧ ShowsServer toString s shown

/-- Every position that the document would show is finite. -/
structure RelayServer.Finite (s : RelayServer) : Prop where
  players : ∀ p ∈ s.players, PositionFinite p.position
  rendezvous : ∀ v, s.rendezvous = some v → PositionFinite v

theorem snapshot_finite_iff (uptimeNowMs nowMs : Int) :
    (s.snapshot toString uptimeNowMs nowMs).Finite ↔ s.Finite := by
  constructor
  · intro h
    refine ⟨?_, ?_⟩
    · intro p hp
      exact h.players _ (List.mem_map_of_mem hp)
    · intro v hv
      have hanchor := h.anchor
      simp only [RelayServer.snapshot, hv] at hanchor
      exact hanchor rfl
  · intro h
    refine ⟨?_, ?_⟩
    · intro hknown
      rcases Option.isSome_iff_exists.1 hknown with ⟨v, hv⟩
      simp only [RelayServer.snapshot, hv]
      exact h.rendezvous v hv
    · intro entry hentry
      rcases List.mem_map.1 hentry with ⟨p, hp, rfl⟩
      exact h.players p hp

theorem showsPosition_positionValue (v : Vec3) : ShowsPosition v (positionValue v) := by
  exact ⟨rfl, rfl, rfl⟩

theorem showsPlayer_entryValue (p : Player) (connectedForMs : Int) :
    ShowsPlayer toString p (entryValue
      { networkId := p.networkId
        address := toString p.address
        spawned := p.spawned
        position := p.position
        connectedForMs := connectedForMs }) where
  networkId := rfl
  address := rfl
  position := ⟨positionValue p.position, rfl, showsPosition_positionValue p.position⟩

/-- What the document says is what the server is. -/
theorem showsServer_statusValue (h : TableInv s) (uptimeNowMs nowMs : Int)
    (tunnelConnections : Int32) (tunnelEnabled : Bool) :
    ShowsServer toString s
      (statusValue (s.snapshot toString uptimeNowMs nowMs) tunnelConnections tunnelEnabled) := by
  -- The table is bounded, so the count fits into an `int`.
  have hcount : (Int32.ofNat s.players.length).toInt = s.players.length :=
    Int32.toInt_ofNat_of_lt h.length_lt
  let shown := s.snapshot toString uptimeNowMs nowMs
  refine ⟨⟨_, rfl⟩, ?_, shown.players.map entryValue, ?_, ?_⟩
  · have hplayers : (statusValue shown tunnelConnections tunnelEnabled).field "players".toList =
        some (.number shown.playerCount.toInt) := by
      cases tunnelEnabled <;> rfl
    rw [hplayers]
    simp only [shown, RelayServer.snapshot, hcount, Int.cast_natCast]
  · cases tunnelEnabled <;> rfl
  · simp only [shown, RelayServer.snapshot, List.forall₂_map_right_iff, List.forall₂_same]
    intro p _
    exact showsPlayer_entryValue p _

theorem servesJson_iff (h : TableInv s) : ServesJson toString s ↔ s.Finite := by
  constructor
  · intro hserves
    rcases hserves 0 0 0 false with ⟨shown, hparses, -⟩
    exact (snapshot_finite_iff 0 0).1 ((parses_buildJson_iff _ 0 false shown).1 hparses).1
  · intro hfinite uptimeNowMs nowMs tunnelConnections tunnelEnabled
    refine ⟨_, (parses_buildJson_iff _ _ _ _).2
      ⟨(snapshot_finite_iff uptimeNowMs nowMs).2 hfinite, rfl⟩, ?_⟩
    exact showsServer_statusValue h uptimeNowMs nowMs tunnelConnections tunnelEnabled

end Documents

/-! ## Every run -/

section Runs

variable {config : Config} {s : RelayServer} {event : Event}

/-- What the event reports, if anything, is a finite position. -/
def ReportsFinite (s : RelayServer) (event : Event) : Prop :=
  ∀ r, report s event = some r → PositionFinite r.2

instance (s : RelayServer) (event : Event) : Decidable (ReportsFinite s event) :=
  match h : report s event with
  | none => isTrue fun r hr => by rw [h] at hr; cases hr
  | some r =>
      decidable_of_iff (PositionFinite r.2)
        ⟨fun hfinite q hq => by rw [h] at hq; exact Option.some.inj hq ▸ hfinite,
          fun hfinite => hfinite r h⟩

/-- Beyond what is shown now, the anchor that is kept for an empty world is finite. -/
structure FiniteInv (config : Config) (s : RelayServer) : Prop where
  server : ServerInv config s
  players : ∀ p ∈ s.players, PositionFinite p.position
  persisted : s.persistedAnchorKnown = true → PositionFinite s.persistedAnchor

theorem FiniteInv.finite (h : FiniteInv config s) : s.Finite where
  players := h.players
  rendezvous := by
    intro v hv
    have hlowest := lowestOf_anchorPlayer s.players
    rw [RelayServer.rendezvous] at hv
    cases hbest : anchorPlayer s.players with
    | some best =>
      rw [hbest] at hlowest hv
      rw [← Option.some.inj hv]
      exact h.players best hlowest.1
    | none =>
      rw [hbest] at hv
      simp only at hv
      split at hv
      · rename_i hknown
        rw [← Option.some.inj hv]
        exact h.persisted hknown
      · cases hv

/-- What `PersistAnchor` keeps is the position of a player, or what was kept before. -/
theorem persistAnchor_finite (hplayers : ∀ p ∈ s.players, PositionFinite p.position)
    (hpersisted : s.persistedAnchorKnown = true → PositionFinite s.persistedAnchor)
    (writable : Bool) (hknown : (s.persistAnchor writable).persistedAnchorKnown = true) :
    PositionFinite (s.persistAnchor writable).persistedAnchor := by
  have hlowest := lowestOf_anchorPlayer s.players
  unfold RelayServer.persistAnchor at hknown ⊢
  split at hknown
  · rw [if_pos ‹_›]
    exact hpersisted hknown
  · rw [if_neg ‹_›]
    cases hbest : anchorPlayer s.players with
    | none =>
      rw [hbest] at hknown
      exact hpersisted hknown
    | some best =>
      rw [hbest] at hknown hlowest
      cases writable with
      | true => exact hplayers best hlowest.1
      | false => exact hpersisted hknown

/-- A packet changes nothing but the player vector. -/
theorem tickPacket_frame (s : RelayServer) (packet : Packet) (tickMs handlerMs : Int) :
    (s.tickPacket packet tickMs handlerMs).1 =
      { s with players := (s.tickPacket packet tickMs handlerMs).1.players } := by
  have hdispatch : ∀ s : RelayServer, (s.dispatch packet handlerMs).1 =
      { s with players := (s.dispatch packet handlerMs).1.players } := by
    intro s
    have hmotion : ∀ minSize messageId store,
        (s.handleMotion minSize messageId store packet).1 =
          { s with players := (s.handleMotion minSize messageId store packet).1.players } := by
      intro minSize messageId store
      unfold RelayServer.handleMotion
      split
      · rfl
      · split
        · rfl
        · split <;> rfl
    have hdrop : (s.handleDrop packet).1 =
        { s with players := (s.handleDrop packet).1.players } := by
      unfold RelayServer.handleDrop
      split <;> rfl
    unfold RelayServer.dispatch
    split
    · unfold RelayServer.handleConnectionNotification
      split
      · rfl
      · split <;> rfl
    · unfold RelayServer.handleCreateNetPlayer
      split
      · rfl
      · split <;> rfl
    · exact hmotion _ _ _
    · exact hmotion _ _ _
    · exact hdrop
    · exact hdrop
    · rfl
  have hbookkeep : (s.bookkeep packet tickMs).1 =
      { s with players := (s.bookkeep packet tickMs).1.players } := by
    unfold RelayServer.bookkeep
    split <;> rfl
  simp only [RelayServer.tickPacket]
  split
  · rw [hdispatch, hbookkeep]
  · exact hbookkeep

theorem FiniteInv.step (h : FiniteInv config s) (hreport : ReportsFinite s event) :
    FiniteInv config (step s event).1 := by
  refine ⟨h.server.step event, ?_, ?_⟩
  · intro p hp
    rcases placed_step h.server hp with hsaid | ⟨⟨q, hq, -, -, hstood⟩ | ⟨-, hnew⟩, -⟩
    · exact hreport _ hsaid
    · rw [← hstood]
      exact h.players q hq
    · rw [hnew]
      decide
  · cases hpeer : s.peer with
    | false => simpa [Server.step, hpeer] using h.persisted
    | true =>
      simp only [Server.step, hpeer, Bool.not_true, Bool.false_eq_true, if_false]
      cases event with
      | packet packet tickMs handlerMs =>
        simp only
        rw [tickPacket_frame]
        exact h.persisted
      | tickEnd nowMs persistMs writable =>
        simp only [RelayServer.tickEnd]
        split
        · exact persistAnchor_finite (s := { s with lastPersistMs := persistMs }) h.players
            h.persisted writable
        · exact h.persisted
      | stop writable => exact persistAnchor_finite h.players h.persisted writable

theorem reportsFinite_of_finite (h : ServerInv config s) (hfinite : (step s event).1.Finite) :
    ReportsFinite s event := by
  intro r hr
  rcases exists_of_report h hr with ⟨p, hp, hposition⟩
  rw [← hposition]
  exact hfinite.players p hp

/-- A restored anchor is shown until somebody has spawned. -/
theorem start_finite_iff (config : Config) (nowMs : Int) (restored : Option Vec3) :
    (start config nowMs restored).Finite ↔
      (config.stateFile ≠ "" → ∀ v, restored = some v → PositionFinite v) := by
  have hrendezvous : (start config nowMs restored).rendezvous =
      if config.stateFile = "" then none else restored := by
    have hnobody : anchorPlayer (start config nowMs restored).players = none := rfl
    rw [RelayServer.rendezvous, hnobody]
    by_cases hfile : config.stateFile = ""
    · simp [start, hfile]
    · cases restored <;> simp [start, hfile]
  constructor
  · intro h hfile v hv
    exact h.rendezvous v (by rw [hrendezvous, if_neg hfile, hv])
  · intro h
    refine ⟨fun p hp => absurd hp List.not_mem_nil, ?_⟩
    intro v hv
    rw [hrendezvous] at hv
    split at hv
    · cases hv
    · exact h ‹_› v hv

theorem finiteInv_start {nowMs : Int} {restored : Option Vec3}
    (h : (start config nowMs restored).Finite) :
    FiniteInv config (start config nowMs restored) where
  server := serverInv_run config nowMs restored []
  players := h.players
  persisted := by
    intro hknown
    have hnobody : anchorPlayer (start config nowMs restored).players = none := rfl
    refine h.rendezvous _ ?_
    rw [RelayServer.rendezvous, hnobody]
    exact if_pos hknown

end Runs

/-- In every run, the status document is a JSON text that shows the server in every state exactly
when the position restored at the start is finite and no report that the server takes note of is
not. -/
theorem status_document_iff (toString : SystemAddress → List Char) (config : Config)
    (nowMs : Int) (restored : Option Vec3) (events : List Event) :
    server.StatesSatisfy (ServesJson toString) (start config nowMs restored) events ↔
      (config.stateFile ≠ "" → ∀ v, restored = some v → PositionFinite v) ∧
        server.StepsSatisfy ReportsFinite (start config nowMs restored) events := by
  have hserves : ∀ before,
      ServesJson toString (server.state (start config nowMs restored) before) ↔
        (server.state (start config nowMs restored) before).Finite :=
    fun before => servesJson_iff (serverInv_run config nowMs restored before).table
  have hrun : (start config nowMs restored).Finite →
      (server.StatesSatisfy (ServesJson toString) (start config nowMs restored) events ↔
        server.StepsSatisfy ReportsFinite (start config nowMs restored) events) := by
    intro hstart
    refine Machine.statesSatisfy_iff (I := FiniteInv config) ?_ ?_ ?_ (finiteInv_start hstart)
      events
    · intro s h
      exact (servesJson_iff h.server.table).2 h.finite
    · intro s event h hreport
      exact h.step hreport
    · intro s event h hafter
      exact reportsFinite_of_finite h.server
        ((servesJson_iff (h.server.step event).table).1 hafter)
  rw [← start_finite_iff config nowMs restored]
  constructor
  · intro h
    have hstart := (hserves []).1 (h [] (List.nil_prefix))
    exact ⟨hstart, (hrun hstart).1 h⟩
  · rintro ⟨hstart, hsteps⟩
    exact (hrun hstart).2 hsteps

/-! ### A client that is nowhere -/

/-- A client joins and spawns at a NaN. -/
def nowhere : List Event :=
  [joinEvent 1, spawnEvent 1 0x7FC00000]

/-- The document that follows is no JSON text. -/
theorem nan_breaks_document :
    let toString : SystemAddress → List Char := fun _ => "10.0.0.1|1".toList
    ¬ Json.WellFormed (buildJson
        ((server.state (start {} 0 none) nowhere).snapshot toString 0 0) 0 false) ∧
      ¬ server.StatesSatisfy (ServesJson toString) (start {} 0 none) nowhere := by
  intro toString
  have hnan : ¬ (server.state (start {} 0 none) nowhere).Finite := by
    intro hfinite
    have hwhere : (server.state (start {} 0 none) nowhere).players.map Player.position =
        [{ x := 0x7FC00000 }] := by decide +kernel
    have hmem : ({ x := 0x7FC00000 } : Vec3) ∈
        (server.state (start {} 0 none) nowhere).players.map Player.position := by
      rw [hwhere]
      exact List.mem_singleton.2 rfl
    rcases List.mem_map.1 hmem with ⟨p, hp, hposition⟩
    have hnot := hfinite.players p hp
    rw [hposition] at hnot
    exact absurd hnot (by decide)
  constructor
  · rintro ⟨shown, hparses⟩
    exact hnan ((snapshot_finite_iff 0 0).1 ((parses_buildJson_iff _ 0 false shown).1 hparses).1)
  · intro h
    have hserves := h nowhere List.prefix_rfl
    exact hnan ((servesJson_iff (serverInv_run {} 0 none nowhere).table).1 hserves)

end Server
end Crossover
