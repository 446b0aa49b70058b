import Streamwm.Library.JsonText
import Streamwm.SocketRequests

/-!
# One connection to the socket

`handle_client` reads lines up to the first that is not blank, answers it with one line and
closes the connection; `subscribe` is the exception. A line that cannot be read, since it is no
UTF-8, closes the connection without an answer. Every answer is JSON, except that the
name of an unknown command is pasted into one without escaping it. So a request gets one line
of JSON iff it can be read and is no unknown command, or its name reads as the inside of a string
(`answered_once_iff`).

JSON is read and written by a library, and a snapshot is answered by the window manager's
thread; both are fields of `Client`.
-/

namespace Streamwm

/-- The name of the command in a request. -/
def commandName (cmd : Json) : String :=
  ((cmd.get "cmd").bind Json.asStr).getD ""

/-- What a connection depends on. -/
structure Client where
  /-- `serde_json::from_str`. -/
  fromStr : List Char → Option Json
  /-- `serde_json::to_string`. -/
  toString : StatusSnapshot → Option (List Char)
  /-- The answer to `request_snapshot`, if it is there in time. -/
  requestSnapshot : Option StatusSnapshot

/-- What a connection leads to. -/
structure Exchange where
  /-- The text written to the client. -/
  written : List Char
  /-- The commands sent to the window manager's thread. -/
  sent : List Command
  /-- The client is served by `stream_snapshots`. -/
  streamed : Bool

namespace Exchange

/-- `writeln!(writer, "{text}")`. -/
def writeln (text : List Char) : Exchange :=
  { written := text ++ ['\n'], sent := [], streamed := false }

/-- The connection ends without an answer. -/
def closed : Exchange :=
  { written := [], sent := [], streamed := false }

end Exchange

namespace Client

variable (c : Client)

/-- Serve one line. -/
def serve (line : List Char) : Exchange :=
  if line = "get_status".toList then
    match c.requestSnapshot with
    | some snap => .writeln ((c.toString snap).getD "\x7b\x7d".toList)
    | none => .writeln "\x7b\"error\":\"status timeout\"\x7d".toList
  else
    match c.fromStr line with
    | none => .writeln "\x7b\"error\":\"bad json\"\x7d".toList
    | some cmd =>
      let name := commandName cmd
      if name = "subscribe" then { Exchange.closed with streamed := true }
      else
        match parseCommandValue cmd with
        | some cmd => { Exchange.writeln "\x7b\"status\":\"ok\"\x7d".toList with sent := [cmd] }
        | none =>
          .writeln ("\x7b\"error\":\"unknown command: ".toList ++ name.toList ++ "\"\x7d".toList)

/-- The loop over the lines the client sends; `none` is a line that cannot be read. -/
def serveLines : List (Option (List Char)) → Exchange
  | [] => .closed
  | none :: _ => .closed
  | some line :: lines => if (trim line).isEmpty then serveLines lines else c.serve (trim line)

/-- Serve a client; `none` is a stream that cannot be cloned. -/
def handleClient (stream : Option (List (Option (List Char)))) : Exchange :=
  stream.elim .closed c.serveLines

/-- Snapshots are serialized as JSON on one line. -/
def Serializes : Prop :=
  ∀ snap json, c.toString snap = some json → Json.IsJson json ∧ '\n' ∉ json

/-- The line asks for a stream of snapshots. -/
def Subscribes (line : List Char) : Prop :=
  line ≠ "get_status".toList ∧ ∃ cmd, c.fromStr line = some cmd ∧ commandName cmd = "subscribe"

/-- The first line that is not blank, if there is one and it can be read. -/
def requested : List (Option (List Char)) → Option (List Char)
  | [] => none
  | none :: _ => none
  | some line :: lines => if (trim line).isEmpty then requested lines else some (trim line)

/-- At most one command is sent, the one that the request asks for. -/
structure SendsParsed (request : Option (List Char)) (x : Exchange) : Prop where
  atMostOne : x.sent.length ≤ 1
  parsed : ∀ cmd ∈ x.sent, (request.bind c.fromStr).bind parseCommandValue = some cmd

/-- The request is answered with one line of JSON, and no other command is sent than the one it
asks for. -/
structure AnsweredOnce (request : Option (List Char)) (x : Exchange) : Prop
    extends c.SendsParsed request x where
  response : ∃ json, x.written = json ++ ['\n'] ∧ '\n' ∉ json ∧ Json.IsJson json

/-- The name of a command that is not known is the inside of a string, or leaves it on the same
line and goes on with members of the object. -/
def PastesName (line : List Char) : Prop :=
  ∀ cmd, line ≠ "get_status".toList → c.fromStr line = some cmd → parseCommandValue cmd = none →
    Json.Chars (commandName cmd).toList ∨
      Json.Continues (commandName cmd).toList ∧ '\n' ∉ (commandName cmd).toList

variable {c} {line : List Char} {lines : List (Option (List Char))}

/-! ## The first line that is not blank -/

/-- Only the first line that is not blank is acted on. -/
theorem serveLines_eq : ∀ lines : List (Option (List Char)),
    c.serveLines lines = (requested lines).elim .closed c.serve
  | [] => rfl
  | none :: _ => rfl
  | some line :: lines => by
    rw [serveLines, requested]
    split_ifs
    · exact serveLines_eq lines
    · rfl

theorem handleClient_eq : c.handleClient (some lines) = (requested lines).elim .closed c.serve := by
  rw [handleClient, Option.elim_some, serveLines_eq]

/-! ## The answers -/

theorem answeredOnce_writeln_iff {text : List Char} :
    c.AnsweredOnce (some line) (.writeln text) ↔ Json.IsJson text ∧ '\n' ∉ text := by
  constructor
  · rintro ⟨-, json, heq, hnewline, hjson⟩
    obtain rfl := List.append_cancel_right heq
    exact ⟨hjson, hnewline⟩
  · rintro ⟨hjson, hnewline⟩
    refine ⟨⟨?_, ?_⟩, text, rfl, hnewline, hjson⟩
    · simp [Exchange.writeln]
    · simp [Exchange.writeln]

/-- A connection that is closed has no answer. -/
theorem not_answeredOnce_closed {request : Option (List Char)} :
    ¬c.AnsweredOnce request .closed := by
  rintro ⟨-, json, heq, -, -⟩
  exact absurd heq (by simp [Exchange.closed])

theorem isJson_empty : Json.IsJson "\x7b\x7d".toList :=
  Json.isJson_object_iff.mpr (Or.inl Json.blank_nil)

theorem isJson_status : Json.IsJson "\x7b\"status\":\"ok\"\x7d".toList := by
  have hkey : ∀ c ∈ "status".toList, Json.Plain c := Json.plain_of_all (by decide)
  have hok : ∀ c ∈ "ok".toList, Json.Plain c := Json.plain_of_all (by decide)
  exact Json.isJson_message hkey hok

theorem plain_error : ∀ c ∈ "error".toList, Json.Plain c :=
  Json.plain_of_all (by decide)

theorem isJson_timeout : Json.IsJson "\x7b\"error\":\"status timeout\"\x7d".toList := by
  have htext : ∀ c ∈ "status timeout".toList, Json.Plain c := Json.plain_of_all (by decide)
  exact Json.isJson_message plain_error htext

theorem isJson_badJson : Json.IsJson "\x7b\"error\":\"bad json\"\x7d".toList := by
  have htext : ∀ c ∈ "bad json".toList, Json.Plain c := Json.plain_of_all (by decide)
  exact Json.isJson_message plain_error htext

/-- The answer to an unknown command. -/
theorem isJson_unknown_iff {name : List Char} :
    Json.IsJson ("\x7b\"error\":\"unknown command: ".toList ++ name ++ "\"\x7d".toList) ↔
      Json.Chars name ∨ Json.Continues name := by
  have htext : ∀ c ∈ "unknown command: ".toList, Json.Plain c := Json.plain_of_all (by decide)
  rw [← Json.isJson_paste_iff (.of_plain plain_error) htext]
  have hquote : "\"\x7d".toList = ['"'] ++ ['\x7d'] := rfl
  rw [hquote, ← List.append_assoc, List.append_assoc _ name]
  rfl

theorem newline_notMem_unknown_iff {name : List Char} :
    '\n' ∉ "\x7b\"error\":\"unknown command: ".toList ++ name ++ "\"\x7d".toList ↔ '\n' ∉ name := by
  have hfront : '\n' ∉ "\x7b\"error\":\"unknown command: ".toList := by decide
  have hback : '\n' ∉ "\"\x7d".toList := by decide
  simp only [List.mem_append, hfront, hback, false_or, or_false]

theorem answeredOnce_status (hserializes : c.Serializes) (hstatus : line = "get_status".toList) :
    c.AnsweredOnce (some line) (c.serve line) := by
  rw [serve, if_pos hstatus]
  cases hsnap : c.requestSnapshot with
  | none => exact answeredOnce_writeln_iff.mpr ⟨isJson_timeout, by decide⟩
  | some snap =>
    refine answeredOnce_writeln_iff.mpr ?_
    cases hjson : c.toString snap with
    | none => exact ⟨isJson_empty, by decide⟩
    | some json => exact hserializes snap json hjson

theorem sendsParsed_command {cmd : Json} {command : Command} (hcmd : c.fromStr line = some cmd)
    (hparse : parseCommandValue cmd = some command) : c.SendsParsed (some line)
      { Exchange.writeln "\x7b\"status\":\"ok\"\x7d".toList with sent := [command] } where
  atMostOne := le_refl _
  parsed := by
    intro command' hmem
    rw [List.mem_singleton.mp hmem, Option.bind_some, hcmd, Option.bind_some, hparse]

theorem sendsParsed_of_nil {request : Option (List Char)} {x : Exchange} (h : x.sent = []) :
    c.SendsParsed request x := by
  refine ⟨?_, ?_⟩
  · simp [h]
  · simp [h]

/-- Serving a line sends at most the command it asks for. -/
theorem sendsParsed_serve (c : Client) (line : List Char) :
    c.SendsParsed (some line) (c.serve line) := by
  unfold serve
  split_ifs
  · cases c.requestSnapshot with
    | none => exact sendsParsed_of_nil rfl
    | some snap => exact sendsParsed_of_nil rfl
  cases hcmd : c.fromStr line with
  | none => exact sendsParsed_of_nil rfl
  | some cmd =>
    dsimp only
    split_ifs
    · exact sendsParsed_of_nil rfl
    cases hparse : parseCommandValue cmd with
    | none => exact sendsParsed_of_nil rfl
    | some command => exact sendsParsed_command hcmd hparse

/-- The request is answered with one line of JSON iff its name can be pasted, where it is. -/
theorem answeredOnce_serve_iff (hserializes : c.Serializes) (hsubscribes : ¬c.Subscribes line) :
    c.AnsweredOnce (some line) (c.serve line) ↔ c.PastesName line := by
  by_cases hstatus : line = "get_status".toList
  · exact iff_of_true (answeredOnce_status hserializes hstatus) fun _ hne => absurd hstatus hne
  rw [serve, if_neg hstatus]
  cases hcmd : c.fromStr line with
  | none =>
    refine iff_of_true (answeredOnce_writeln_iff.mpr ⟨isJson_badJson, by decide⟩) ?_
    intro cmd _ h
    rw [hcmd] at h
    cases h
  | some cmd =>
    have hname : commandName cmd ≠ "subscribe" := fun h => hsubscribes ⟨hstatus, cmd, hcmd, h⟩
    have hsame : ∀ cmd', c.fromStr line = some cmd' → cmd = cmd' := fun cmd' h =>
      Option.some.inj (hcmd.symm.trans h)
    simp only [if_neg hname]
    cases hparse : parseCommandValue cmd with
    | some command =>
      have hanswer : c.AnsweredOnce (some line)
          { Exchange.writeln "\x7b\"status\":\"ok\"\x7d".toList with sent := [command] } :=
        ⟨sendsParsed_command hcmd hparse, _, rfl, by decide, isJson_status⟩
      refine iff_of_true hanswer fun cmd' _ hcmd' hnone => ?_
      rw [← hsame cmd' hcmd', hparse] at hnone
      cases hnone
    | none =>
      rw [answeredOnce_writeln_iff, isJson_unknown_iff, newline_notMem_unknown_iff]
      constructor
      · rintro ⟨h, hnewline⟩ cmd' - hcmd' -
        rw [← hsame cmd' hcmd']
        exact h.imp_right fun hcontinues => ⟨hcontinues, hnewline⟩
      · intro h
        rcases h cmd hstatus hcmd hparse with h | ⟨h, hnewline⟩
        · exact ⟨Or.inl h, h.newline_notMem⟩
        · exact ⟨Or.inr h, hnewline⟩

/-- Of a client that does not ask for a stream : nothing is acted on but its first line that is not
blank, and at most the command of that line is sent; it is answered with one line of JSON iff there
is such a line that can be read, and it is no unknown command or the name can be pasted. -/
theorem answered_once_iff (hserializes : c.Serializes) (lines : List (Option (List Char)))
    (hsubscribes : ∀ line, requested lines = some line → ¬c.Subscribes line) :
    (∀ lines', requested lines' = requested lines →
        c.handleClient (some lines') = c.handleClient (some lines)) ∧
      c.SendsParsed (requested lines) (c.handleClient (some lines)) ∧
      (c.AnsweredOnce (requested lines) (c.handleClient (some lines)) ↔
        ∃ line, requested lines = some line ∧ c.PastesName line) := by
  refine ⟨fun lines' hsame => by rw [handleClient_eq, handleClient_eq, hsame], ?_⟩
  rw [handleClient_eq]
  cases hline : requested lines with
  | none =>
    refine ⟨sendsParsed_of_nil rfl, iff_of_false not_answeredOnce_closed ?_⟩
    rintro ⟨line, h, -⟩
    cases h
  | some line =>
    refine ⟨sendsParsed_serve c line, ?_⟩
    rw [Option.elim_some, answeredOnce_serve_iff hserializes (hsubscribes line hline)]
    simp

/-- An unknown command with a harmless name. -/
theorem answered_once_iff_dance : ∃ c : Client, c.Serializes ∧
    c.AnsweredOnce (some "\x7b\"cmd\":\"dance\"\x7d".toList) (c.handleClient
      (some [some "  ".toList, some "\x7b\"cmd\":\"dance\"\x7d".toList, none])) := by
  let line : List Char := "\x7b\"cmd\":\"dance\"\x7d".toList
  let c : Client := {
    fromStr := fun l => if l = line then some (.object [("cmd", .string "dance")]) else none
    toString := fun _ => none
    requestSnapshot := none }
  have hserializes : c.Serializes := fun _ _ h => by cases h
  have hrequested : requested [some "  ".toList, some line, none] = some line := by decide
  have hname : commandName (.object [("cmd", .string "dance")]) = "dance" := rfl
  have hread : c.fromStr line = some (.object [("cmd", .string "dance")]) := by simp [c]
  have hsubscribes : ∀ l, requested [some "  ".toList, some line, none] = some l →
      ¬c.Subscribes l := by
    rintro l hl ⟨-, cmd, h, hsub⟩
    obtain rfl : line = l := Option.some.inj (hrequested.symm.trans hl)
    rw [hread] at h
    rw [← Option.some.inj h, hname] at hsub
    exact absurd hsub (by decide)
  have hpastes : c.PastesName line := by
    intro cmd _ h _
    rw [hread] at h
    rw [← Option.some.inj h, hname]
    exact Or.inl (.of_plain (Json.plain_of_all (by decide)))
  obtain ⟨-, -, hiff⟩ := answered_once_iff hserializes _ hsubscribes
  have hanswered := hiff.mpr ⟨line, hrequested, hpastes⟩
  rw [hrequested] at hanswered
  exact ⟨c, hserializes, hanswered⟩

/-- The name `a"b` ends the string. -/
theorem answer_malformed : ¬∀ (c : Client) (lines : List (Option (List Char))) (line : List Char),
    c.Serializes → requested lines = some line → ¬c.Subscribes line →
      c.AnsweredOnce (some line) (c.handleClient (some lines)) := by
  intro hall
  let line : List Char := "\x7b\"cmd\":\"a\\\"b\"\x7d".toList
  let c : Client := {
    fromStr := fun l => if l = line then some (.object [("cmd", .string "a\"b")]) else none
    toString := fun _ => none
    requestSnapshot := none }
  have hrequested : requested [some line] = some line := by decide
  have hread : c.fromStr line = some (.object [("cmd", .string "a\"b")]) := by simp [c]
  have hsubscribes : ¬c.Subscribes line := by
    rintro ⟨-, cmd, h, hsub⟩
    rw [hread] at h
    rw [← Option.some.inj h] at hsub
    exact absurd hsub (by decide)
  have hanswered := hall c [some line] line (fun _ _ h => by cases h) hrequested hsubscribes
  have hserve : c.handleClient (some [some line]) = .writeln
      ("\x7b\"error\":\"unknown command: ".toList ++ "a\"b".toList ++ "\"\x7d".toList) := rfl
  rw [hserve, answeredOnce_writeln_iff, isJson_unknown_iff] at hanswered
  rcases hanswered.1 with h | ⟨b, w, m, heq, -, -, -⟩
  · have hplain : ∀ c ∈ ['a'], Json.Plain c := Json.plain_of_all (by decide)
    exact Json.not_chars_quote (Json.Chars.of_append hplain h)
  · have hcomma : ',' ∈ "a\"b".toList := heq ▸ by simp
    exact absurd hcomma (by decide)

end Client

end Streamwm
