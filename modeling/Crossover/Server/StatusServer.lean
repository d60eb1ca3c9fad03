import Crossover.Lib.Http
import Crossover.Server.Status

/-!
# StatusServer — the status endpoint

`ServeLoop` answers one request a connection from its own thread, in between the steps of the relay:
`Service` is the two of them together.  `Respond` gives up when `send` does, so a client may get the
beginning of a response only; it never takes that for a response, because the length is in front.
-/

namespace Crossover
namespace Server

open Wire

/-! ## `Respond` -/

/-- What `Respond` puts together. -/
def responseText (status contentType body : List Char) : List Char :=
  "HTTP/1.1 ".toList ++ status ++ "\r\n".toList ++
    "Content-Type: ".toList ++ contentType ++ "\r\n".toList ++
    "Content-Length: ".toList ++ decimalText body.length ++ "\r\n".toList ++
    "Cache-Control: no-store\r\n".toList ++
    "Connection: close\r\n\r\n".toList ++ body

/-- The loop around `send`: the bytes that the connection has accepted, by what the calls return. -/
def sendSome : List Int → List Char → List Char
  | _, [] => []
  | [], _ :: _ => []
  | n :: results, c :: out =>
      if n ≤ 0 then []
      else (c :: out).take n.toNat ++ sendSome results ((c :: out).drop n.toNat)

structure Answer where
  status : List Char
  contentType : List Char
  body : List Char
  deriving DecidableEq, Repr

def Answer.text (answer : Answer) : List Char :=
  responseText answer.status answer.contentType answer.body

def respond (results : List Int) (answer : Answer) : List Char :=
  sendSome results answer.text

/-! ## `ServeLoop` -/

/-- `std::string(buf)`: what one call of `recv` has put into the buffer, up to the first NUL.
Nothing may have come in in time, or the call may have failed. -/
def requestText (received : Option (List Char)) : List Char :=
  ((received.getD []).take 1023).takeWhile fun c => c != Char.ofNat 0

def answerTo (request : List Char) (document : List Char) : Answer :=
  if "GET /health".toList.isPrefixOf request then
    { status := "200 OK".toList, contentType := "text/plain".toList, body := "ok".toList }
  else if "GET ".toList.isPrefixOf request then
    { status := "200 OK".toList, contentType := "application/json".toList, body := document }
  else
    { status := "405 Method Not Allowed".toList, contentType := "text/plain".toList, body := [] }

/-- What happens in the process: the relay's thread does something, or the status thread takes a
connection, in which case it reads the clock and the tunnel's counter. -/
inductive ServiceEvent
  | relay (event : Event)
  | request (received : Option (List Char)) (results : List Int) (uptimeNowMs nowMs : Int)
      (tunnelConnections : Int32)

inductive ServiceCall
  | peer (call : PeerCall)
  | sent (text : List Char)

/-- The document of the moment, as `main` has the endpoint provide it. -/
def statusDocument (toString : SystemAddress → List Char) (s : RelayServer)
    (uptimeNowMs nowMs : Int) (tunnelConnections : Int32) : List Char :=
  buildJson (s.snapshot toString uptimeNowMs nowMs)
    (if s.config.tunnelEnabled then tunnelConnections else 0) s.config.tunnelEnabled

def service (toString : SystemAddress → List Char) :
    Machine RelayServer ServiceEvent ServiceCall where
  step := fun s event =>
    match event with
    | .relay event => ((step s event).1, (step s event).2.map .peer)
    | .request received results uptimeNowMs nowMs tunnelConnections =>
        (s, [.sent (respond results (answerTo (requestText received)
          (statusDocument toString s uptimeNowMs nowMs tunnelConnections)))])

def ServiceEvent.relayed : ServiceEvent → Option Event
  | .relay event => some event
  | .request _ _ _ _ _ => none

def ServiceCall.peerCall : ServiceCall → Option PeerCall
  | .peer call => some call
  | .sent _ => none

/-! ## The response -/

def Answer.response (answer : Answer) : Http.Response where
  status := answer.status
  headers :=
    [("Content-Type".toList, answer.contentType),
      ("Content-Length".toList, decimalText answer.body.length),
      ("Cache-Control".toList, "no-store".toList), ("Connection".toList, "close".toList)]
  body := answer.body

/-- The same with the constant texts as variables. -/
theorem render_four {status body : List Char} {first second third fourth : List Char × List Char} :
    ({ status := status, headers := [first, second, third, fourth], body := body } :
      Http.Response).render =
      Http.version ++ status ++ Http.crlf ++ (first.1 ++ [':', ' ']) ++ first.2 ++ Http.crlf ++
        (second.1 ++ [':', ' ']) ++ second.2 ++ Http.crlf ++
        (third.1 ++ ':' :: ' ' :: third.2 ++ Http.crlf) ++
        (fourth.1 ++ ':' :: ' ' :: fourth.2 ++ (Http.crlf ++ Http.crlf)) ++ body := by
  generalize hcrlf : Http.crlf = crlf
  simp [Http.Response.render, Http.Response.lines, Http.headerLine, hcrlf]

theorem response_render (answer : Answer) : answer.response.render = answer.text := by
  rw [Answer.response, render_four]
  rfl

theorem decimalText_natCast (n : Nat) : decimalText n = Nat.toDigits 10 n := by
  rw [decimalText, Int.toString_eq_repr, Int.repr_eq_if, if_pos (Int.natCast_nonneg n),
    Int.toNat_natCast, Nat.toList_repr]

/-- The length is stated, and nothing in the head breaks a line. -/
theorem framed_response {answer : Answer} (hstatus : Http.Plain answer.status)
    (htype : Http.PlainHeader ("Content-Type".toList, answer.contentType)) :
    Http.Framed answer.response := by
  have hdigits := (Json.isWhole_toDigits answer.body.length).digits
  have hne := (Json.isWhole_toDigits answer.body.length).nonempty
  have hvalue : Nat.ofDigitChars 10 (Nat.toDigits 10 answer.body.length) 0 = answer.body.length :=
    Nat.ofDigitChars_ten_toDigits
  refine ⟨hstatus, ?_, ?_⟩
  · intro header hheader
    simp only [Answer.response, List.mem_cons, List.not_mem_nil, or_false] at hheader
    rcases hheader with rfl | rfl | rfl | rfl
    · exact htype
    · rw [decimalText_natCast]
      have hname : Http.Plain "Content-Length".toList ∧ ':' ∉ "Content-Length".toList := by decide
      refine ⟨hname.1, hname.2, ?_, ?_⟩
      · intro hmem
        exact absurd (hdigits _ hmem) (by decide)
      · intro hspace
        exact absurd (hdigits _ (List.mem_of_head? hspace)) (by decide)
    · decide
    · decide
  · have hfind : (answer.response.headers.find? fun header => header.1 == Http.lengthName) =
        some ("Content-Length".toList, decimalText answer.body.length) := by
      have hother : ("Content-Type".toList == Http.lengthName) = false := by decide
      have hsame : ("Content-Length".toList == Http.lengthName) = true := by decide
      simp only [Answer.response, List.find?_cons, hother, hsame]
    have hall : (Nat.toDigits 10 answer.body.length).all Char.isDigit = true :=
      List.all_eq_true.2 hdigits
    rw [Http.contentLength, hfind, Option.bind_some, decimalText_natCast, if_pos ⟨hne, hall⟩,
      hvalue]
    rfl

/-- The answers that there are. -/
theorem framed_answerTo (request document : List Char) :
    Http.Framed (answerTo request document).response := by
  have hok : Http.Plain "200 OK".toList := by decide
  have hplain : Http.PlainHeader ("Content-Type".toList, "text/plain".toList) := by decide
  have hjson : Http.PlainHeader ("Content-Type".toList, "application/json".toList) := by decide
  rw [answerTo]
  split
  · exact framed_response hok hplain
  · split
    · exact framed_response hok hjson
    · exact framed_response (by decide) hplain

/-! ## Sending it -/

theorem sendSome_prefix (results : List Int) (out : List Char) : sendSome results out <+: out := by
  induction results, out using sendSome.induct with
  | case1 results => simp [sendSome]
  | case2 c out => simp [sendSome]
  | case3 n results c out hn => simp [sendSome, hn]
  | case4 n results c out hn ih =>
    rw [sendSome, if_neg hn]
    have hboth := (List.prefix_append_right_inj ((c :: out).take n.toNat)).2 ih
    rwa [List.take_append_drop] at hboth

/-- As long as every call makes progress, everything is sent. -/
theorem sendSome_whole {results : List Int} {out : List Char} (hpos : ∀ n ∈ results, 0 < n)
    (henough : out.length ≤ results.length) : sendSome results out = out := by
  induction results, out using sendSome.induct with
  | case1 results => simp [sendSome]
  | case2 c out => simp at henough
  | case3 n results c out hn => exact absurd hn (Int.not_le.2 (hpos n List.mem_cons_self))
  | case4 n results c out hn ih =>
    have hrest : ((c :: out).drop n.toNat).length ≤ results.length := by
      simp only [List.length_drop, List.length_cons] at henough ⊢
      omega
    rw [sendSome, if_neg hn, ih (fun m hm => hpos m (List.mem_cons_of_mem _ hm)) hrest,
      List.take_append_drop]

/-- What a client has of the answer: all of it, or something that it goes on waiting behind. -/
theorem read_respond (results : List Int) (request document : List Char) :
    let answer := answerTo request document
    let sent := respond results answer
    (sent = answer.text → Http.read sent = .complete answer.response []) ∧
      (sent ≠ answer.text → Http.read sent = .more) := by
  intro answer sent
  have hframed : Http.Framed answer.response := framed_answerTo request document
  constructor
  · intro hwhole
    rw [hwhole, ← response_render]
    simpa using hframed.read_render []
  · intro hpartial
    have hbegins : sent <+: answer.response.render := by
      rw [response_render]
      exact sendSome_prefix results answer.text
    refine hframed.read_of_proper hbegins ?_
    rw [response_render]
    exact hpartial

/-! ## The endpoint beside the relay -/

section Service

variable {toString : SystemAddress → List Char}

/-- Whoever asks for the status leaves the relay alone. -/
theorem service_run (s : RelayServer) (events : List ServiceEvent) :
    (service toString).state s events = server.state s (events.filterMap ServiceEvent.relayed) ∧
      ((service toString).log s events).filterMap ServiceCall.peerCall =
        server.log s (events.filterMap ServiceEvent.relayed) := by
  induction events generalizing s with
  | nil => exact ⟨rfl, rfl⟩
  | cons event events ih =>
    rw [Machine.state_cons, Machine.log_cons, List.filterMap_append]
    rcases ih ((service toString).step s event).1 with ⟨hstate, hlog⟩
    rw [hstate, hlog]
    cases event with
    | relay event =>
      have hcalls : ((step s event).2.map ServiceCall.peer).filterMap ServiceCall.peerCall =
          (step s event).2 := by
        rw [List.filterMap_map]
        exact List.filterMap_some
      rw [List.filterMap_cons_some (by rfl), Machine.state_cons, Machine.log_cons]
      exact ⟨rfl, congrArg (· ++ _) hcalls⟩
    | request received results uptimeNowMs nowMs tunnelConnections =>
      rw [List.filterMap_cons_none (by rfl)]
      exact ⟨rfl, rfl⟩

/-- The request is for the document. -/
def AsksForStatus (request : List Char) : Prop :=
  "GET ".toList.isPrefixOf request = true ∧ "GET /health".toList.isPrefixOf request = false

/-- Whatever the clients of the relay and those of the endpoint do, in whatever order: the endpoint
disturbs nobody, an answer that arrives as a whole is the one to the request, one that breaks off is
not taken for an answer, and the document shows the relay as it is at that moment, provided that it
shows finite positions only. -/
theorem status_answered (toString : SystemAddress → List Char) (config : Config) (nowMs : Int)
    (restored : Option Vec3) (before : List ServiceEvent) (received : Option (List Char))
    (results : List Int) (uptimeNowMs askedMs : Int) (tunnelConnections : Int32) :
    let s₀ := start config nowMs restored
    let s := (service toString).state s₀ before
    let document := statusDocument toString s uptimeNowMs askedMs tunnelConnections
    let answer := answerTo (requestText received) document
    s = server.state s₀ (before.filterMap ServiceEvent.relayed) ∧
      ∃ text, (service toString).step s
          (.request received results uptimeNowMs askedMs tunnelConnections) = (s, [.sent text]) ∧
        (text = answer.text → Http.read text = .complete answer.response []) ∧
        (text ≠ answer.text → Http.read text = .more) ∧
        ((∀ n ∈ results, 0 < n) → answer.text.length ≤ results.length → text = answer.text) ∧
        (AsksForStatus (requestText received) → s.Finite →
          ∃ shown, Json.Parses answer.body shown ∧ ShowsServer toString s shown) := by
  intro s₀ s document answer
  have hs : s = server.state s₀ (before.filterMap ServiceEvent.relayed) :=
    (service_run s₀ before).1
  rcases read_respond results (requestText received) document with ⟨hwhole, hpartial⟩
  refine ⟨hs, respond results answer, rfl, hwhole, hpartial, sendSome_whole, ?_⟩
  intro hasks hfinite
  have htable : TableInv s := by
    rw [hs]
    exact (serverInv_run config nowMs restored _).table
  have hbody : answer.body = document := by
    simp only [answer, answerTo, hasks.1, hasks.2, Bool.false_eq_true, if_false, if_true]
  rw [hbody]
  exact (servesJson_iff htable).2 hfinite uptimeNowMs askedMs _ _

end Service

end Server
end Crossover
