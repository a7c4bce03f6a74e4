/-
Which response a codex request gets.

The server's output is a list of whole messages, in any order and of any kind.  As long as a
reader is only ever dropped between two lines, what is unread starts with a line, so every
request reads whole messages: it passes over those with another id, whatever they are, and
returns what the first one with its own id says.

A time-out within a line breaks this: the rest of the line is what the next request reads
first.
-/
import Diri.Lib.Lines
import Diri.Lib.Run
import Diri.Node.Codex

namespace Diri.Codex

open List

variable {fromStr : String → Except String Json}

/-! ### The server's messages -/

/-- A message of the server: an object, whose text is on one line and no JSON before its
end. -/
structure ServerLine (fromStr : String → Except String Json) where
  bytes : List UInt8
  value : Json
  oneLine : newline ∉ bytes
  reads : parseLine fromStr (bytes ++ [newline]) = .ok value
  readsEnd : parseLine fromStr bytes = .ok value
  cutShort : ∀ part, part <+: bytes → part ≠ bytes → part ≠ [] →
    ∃ error, parseLine fromStr part = .error error

/-- What is written for messages. -/
def stream (lines : List (ServerLine fromStr)) : List UInt8 :=
  lines.flatMap fun line => line.bytes ++ [newline]

/-- The message has the id, and was not started by the server. -/
def IsResponse (id : Nat) (value : Json) : Prop :=
  idOf value = some id ∧ value.get "method" = none

@[simp] theorem stream_nil : stream ([] : List (ServerLine fromStr)) = [] := rfl

@[simp] theorem stream_cons (line : ServerLine fromStr) (lines : List (ServerLine fromStr)) :
    stream (line :: lines) = line.bytes ++ newline :: stream lines := by
  unfold stream
  rw [flatMap_cons, append_assoc]
  rfl

@[simp] theorem stream_append (lines others : List (ServerLine fromStr)) :
    stream (lines ++ others) = stream lines ++ stream others := by
  unfold stream
  rw [flatMap_append]

theorem cutLines_stream (lines : List (ServerLine fromStr)) (rest : List UInt8) :
    cutLines newline (stream lines ++ rest) =
      (lines.map (·.bytes) ++ (cutLines newline rest).1, (cutLines newline rest).2) := by
  induction lines with
  | nil => rfl
  | cons line lines ih =>
    rw [stream_cons, append_assoc, cons_append, cutLines_line line.oneLine, ih]
    rfl

theorem examine_line (id : Nat) (line : ServerLine fromStr) :
    examine fromStr id (line.bytes ++ [newline]) =
      if idOf line.value = some id then some (answer line.value) else none := by
  unfold examine
  rw [line.reads]
  by_cases hid : idOf line.value = some id
  · simp [hid]
  · simp [hid]

/-! ### Reading -/

section
variable {id : Nat}

theorem consume_append (id : Nat) (line chunk more : List UInt8) :
    consume fromStr id line (chunk ++ more) = match consume fromStr id line chunk with
      | .waiting line => consume fromStr id line more
      | .answered result unread => .answered result (unread ++ more) := by
  induction chunk generalizing line with
  | nil => rfl
  | cons byte rest ih =>
    rw [cons_append, consume, consume]
    split
    · split
      · rfl
      · exact ih []
    · exact ih (line ++ [byte])

theorem respond_flatten (id : Nat) (method : String) (closes : Bool) (line : List UInt8)
    (chunks : List (List UInt8)) : respond fromStr id method closes line chunks =
      match consume fromStr id line chunks.flatten with
      | .waiting line => respond fromStr id method closes line []
      | .answered result unread => (result, unread) := by
  induction chunks generalizing line with
  | nil => rfl
  | cons chunk chunks ih =>
    rw [respond, flatten_cons, consume_append]
    cases consume fromStr id line chunk with
    | waiting line => exact ih line
    | answered result unread => rfl

theorem consume_part (id : Nat) (line : List UInt8) {part : List UInt8}
    (hpart : newline ∉ part) : consume fromStr id line part = .waiting (line ++ part) := by
  induction part generalizing line with
  | nil => rw [consume, append_nil]
  | cons byte rest ih =>
    rw [mem_cons, not_or] at hpart
    rw [consume, if_neg (Ne.symm hpart.1), ih _ hpart.2, append_assoc]
    rfl

theorem consume_line (id : Nat) (line : ServerLine fromStr) (rest : List UInt8) :
    consume fromStr id [] (line.bytes ++ newline :: rest) =
      if idOf line.value = some id then .answered (answer line.value) rest
      else consume fromStr id [] rest := by
  rw [consume_append, consume_part id [] line.oneLine]
  simp only [nil_append]
  rw [consume, if_pos rfl, examine_line]
  by_cases hid : idOf line.value = some id
  · rw [if_pos hid, if_pos hid]
  · rw [if_neg hid, if_neg hid]

/-- What reading whole messages from their start comes to. -/
inductive Heard (id : Nat) (available : List UInt8) (todo : List (ServerLine fromStr)) :
    Progress → Prop
  /-- The first one with the id answers. -/
  | answered (heard : List (ServerLine fromStr)) (last : ServerLine fromStr)
      (later : List (ServerLine fromStr)) (rest : List UInt8)
      (htodo : todo = heard ++ last :: later)
      (havailable : available = stream (heard ++ [last]) ++ rest)
      (hothers : ∀ line ∈ heard, idOf line.value ≠ some id)
      (hown : idOf last.value = some id) :
      Heard id available todo (.answered (answer last.value) rest)
  /-- None of them has it. -/
  | waiting (heard later : List (ServerLine fromStr)) (rest : List UInt8)
      (htodo : todo = heard ++ later)
      (havailable : available = stream heard ++ rest)
      (hothers : ∀ line ∈ heard, idOf line.value ≠ some id)
      (hrest : rest = [] ∨ ∃ next, later.head? = some next ∧ rest <+: next.bytes) :
      Heard id available todo (.waiting rest)

theorem heard_consume (id : Nat) {available future : List UInt8}
    {todo : List (ServerLine fromStr)} (haligned : available ++ future <+: stream todo) :
    Heard id available todo (consume fromStr id [] available) := by
  induction todo generalizing available with
  | nil =>
    have hnil : available = [] := by
      have := prefix_nil.mp haligned
      exact (append_eq_nil_iff.mp this).1
    subst hnil
    exact .waiting [] [] [] rfl rfl (by simp) (.inl rfl)
  | cons line todo ih =>
    rw [stream_cons] at haligned
    by_cases hwhole : line.bytes ++ [newline] <+: available
    · obtain ⟨rest, rfl⟩ := hwhole
      have hrest : rest ++ future <+: stream todo := by
        rw [append_assoc, append_assoc] at haligned
        have hcons := (prefix_append_right_inj _).mp haligned
        exact (cons_prefix_cons.mp hcons).2
      rw [append_assoc, singleton_append, consume_line]
      by_cases hid : idOf line.value = some id
      · rw [if_pos hid]
        exact .answered [] line todo rest rfl (by simp) (by simp) hid
      rw [if_neg hid]
      have hheard := ih hrest
      generalize consume fromStr id [] rest = progress at hheard ⊢
      cases hheard with
      | answered heard last later _ htodo havailable hothers hown =>
        exact .answered (line :: heard) last later _ (congrArg (line :: ·) htodo)
          (by simp [havailable]) (forall_mem_cons.mpr ⟨hid, hothers⟩) hown
      | waiting heard later _ htodo havailable hothers hlater =>
        exact .waiting (line :: heard) later _ (congrArg (line :: ·) htodo)
          (by simp [havailable]) (forall_mem_cons.mpr ⟨hid, hothers⟩) hlater
    -- less than a line is there
    have hpart : available <+: line.bytes := by
      have hthere : available <+: line.bytes ++ newline :: stream todo :=
        (prefix_append _ _).trans haligned
      have hline : line.bytes ++ [newline] <+: line.bytes ++ newline :: stream todo :=
        ⟨stream todo, by simp⟩
      rcases prefix_or_prefix_of_prefix hthere hline with hshort | hlong
      · rcases prefix_concat_iff.mp hshort with rfl | hshort
        · exact absurd prefix_rfl hwhole
        · exact hshort
      · exact absurd hlong hwhole
    rw [consume_part id [] fun hmem => line.oneLine (hpart.subset hmem), nil_append]
    exact .waiting [] (line :: todo) available rfl rfl (by simp) (.inr ⟨line, rfl, hpart⟩)

end

/-! ### One request -/

/-- The lines that can be read of what is there: the last one may lack its end. -/
def readable (closes : Bool) (available : List UInt8) : List (List UInt8) :=
  let lines := cutLines newline available
  lines.1.map (· ++ [newline]) ++ if closes ∧ lines.2 ≠ [] then [lines.2] else []

def firstWithId (fromStr : String → Except String Json) (id : Nat) (lines : List (List UInt8)) :
    Option Json :=
  (lines.filterMap fun line => (parseLine fromStr line).toOption).find? fun value =>
    idOf value = some id

/-- The server starts no message of its own under the id that is waited for, and if the time
is up it is so between two lines. -/
structure Undisturbed (fromStr : String → Except String Json) (id : Nat) (closes : Bool)
    (available : List UInt8) : Prop where
  own : ∀ value, firstWithId fromStr id (readable closes available) = some value →
    value.get "method" = none
  boundary : firstWithId fromStr id (readable closes available) = none → closes = false →
    (cutLines newline available).2 = []

/-- Whole messages of the server are read, up to a response with the id if there is one, and
the answer is what that one says. -/
inductive Attended (lines : List (ServerLine fromStr)) (id : Nat) (method : String)
    (closes : Bool) (available : List UInt8) : Except NodeError Json → List UInt8 → Prop
  | answered (heard : List (ServerLine fromStr)) (last : ServerLine fromStr)
      (rest : List UInt8) (hlines : heard ++ [last] <:+: lines)
      (havailable : available = stream (heard ++ [last]) ++ rest)
      (hothers : ∀ line ∈ heard, idOf line.value ≠ some id)
      (hown : IsResponse id last.value) :
      Attended lines id method closes available (answer last.value) rest
  | timedOut (heard : List (ServerLine fromStr)) (hcloses : closes = false)
      (hlines : heard <:+: lines) (havailable : available = stream heard)
      (hothers : ∀ line ∈ heard, idOf line.value ≠ some id) :
      Attended lines id method closes available (.error (timedOut method)) []
  | closed (heard : List (ServerLine fromStr)) (rest : List UInt8) (error : NodeError)
      (hcloses : closes = true) (hlines : heard <:+: lines)
      (havailable : available = stream heard ++ rest) (hrest : newline ∉ rest)
      (hothers : ∀ line ∈ heard, idOf line.value ≠ some id) :
      Attended lines id method closes available (.error error) []
  /-- The output ends with the message itself, without the end of its line. -/
  | lastWords (heard : List (ServerLine fromStr)) (last : ServerLine fromStr)
      (hcloses : closes = true) (hlines : heard ++ [last] <:+: lines)
      (havailable : available = stream heard ++ last.bytes)
      (hothers : ∀ line ∈ heard, idOf line.value ≠ some id)
      (hown : IsResponse id last.value) :
      Attended lines id method closes available (answer last.value) []

theorem answer_error {value : Json} {error : NodeError} (h : answer value = .error error) :
    ∃ message, error = .provider message := by
  unfold answer at h
  split at h
  · cases h
    exact ⟨_, rfl⟩
  split at h <;> cases h
  exact ⟨_, rfl⟩

section
variable {id : Nat} {lines todo : List (ServerLine fromStr)} {available future : List UInt8}
variable {closes : Bool} {method : String}

theorem Attended.error {result : Except NodeError Json} {unread : List UInt8} {error : NodeError}
    (h : Attended lines id method false available result unread) (hresult : result = .error error) :
    ∃ message, error = .provider message := by
  cases h with
  | answered heard last rest hlines havailable hothers hown => exact answer_error hresult
  | timedOut heard hcloses hlines havailable hothers =>
    cases hresult
    exact ⟨_, rfl⟩
  | closed heard rest error hcloses hlines havailable hrest hothers
  | lastWords heard last hcloses hlines havailable hothers hown => cases hcloses

theorem parses_stream (heard : List (ServerLine fromStr)) :
    ((heard.map (·.bytes)).map (· ++ [newline])).filterMap
        (fun line => (parseLine fromStr line).toOption) = heard.map (·.value) := by
  induction heard with
  | nil => rfl
  | cons line heard ih =>
    rw [map_cons, map_cons, filterMap_cons, line.reads, ih]
    rfl

variable {heard : List (ServerLine fromStr)}

theorem find_value (id : Nat)
    (hothers : ∀ line ∈ heard, idOf line.value ≠ some id) (more : List Json) :
    (heard.map (·.value) ++ more).find? (fun value => idOf value = some id) =
      more.find? fun value => idOf value = some id := by
  rw [find?_append, find?_eq_none.mpr, Option.none_or]
  intro value hvalue
  obtain ⟨line, hline, rfl⟩ := mem_map.mp hvalue
  simpa using hothers line hline

theorem firstWithId_answered {last : ServerLine fromStr}
    (hothers : ∀ line ∈ heard, idOf line.value ≠ some id) (hown : idOf last.value = some id)
    (closes : Bool) (rest : List UInt8) :
    firstWithId fromStr id (readable closes (stream (heard ++ [last]) ++ rest)) =
      some last.value := by
  unfold firstWithId readable
  dsimp only
  rw [cutLines_stream, map_append, append_assoc, filterMap_append, parses_stream,
    map_append, append_assoc, find_value id hothers]
  simp [hown]

theorem firstWithId_waiting {rest : List UInt8}
    (hothers : ∀ line ∈ heard, idOf line.value ≠ some id) (hrest : newline ∉ rest) :
    firstWithId fromStr id (readable closes (stream heard ++ rest)) =
      firstWithId fromStr id (if closes ∧ rest ≠ [] then [rest] else []) := by
  unfold firstWithId readable
  dsimp only
  rw [cutLines_stream, cutLines_of_notMem hrest, append_nil, filterMap_append,
    parses_stream, find_value id hothers]

theorem infix_of_suffix {heard later : List (ServerLine fromStr)} (h : heard ++ later <:+ lines) :
    heard <:+: lines := by
  obtain ⟨before, hbefore⟩ := h
  exact ⟨before, later, by rw [append_assoc, hbefore]⟩

theorem shorten {rest stop : List UInt8} (closes : Bool) (h : rest ++ future <+: stop) :
    rest ++ (if closes then [] else future) <+: stop := by
  cases closes with
  | false => exact h
  | true =>
    rw [if_pos rfl, append_nil]
    exact (prefix_append _ _).trans h

theorem examine_end (id : Nat) (line : ServerLine fromStr) : examine fromStr id line.bytes =
      if idOf line.value = some id then some (answer line.value) else none := by
  unfold examine
  rw [line.readsEnd]
  by_cases hid : idOf line.value = some id
  · simp [hid]
  · simp [hid]

/-- The output ends within a line: either just before the line's end, or in JSON that is
cut short. -/
theorem attended_end {heard later : List (ServerLine fromStr)} {next : ServerLine fromStr}
    {rest : List UInt8} (hlines : heard ++ next :: later <:+ lines) (hrest : rest <+: next.bytes)
    (hne : rest ≠ []) (hothers : ∀ line ∈ heard, idOf line.value ≠ some id)
    (hown : ∀ value, firstWithId fromStr id [rest] = some value → value.get "method" = none) :
    Attended lines id method true (stream heard ++ rest)
      ((examine fromStr id rest).getD (.error closedOutput)) [] := by
  have hpart : newline ∉ rest := fun hmem => next.oneLine (hrest.subset hmem)
  by_cases hwhole : rest = next.bytes
  · subst hwhole
    rw [examine_end]
    by_cases hid : idOf next.value = some id
    · have hfirst : firstWithId fromStr id [next.bytes] = some next.value := by
        unfold firstWithId
        rw [filterMap_cons, next.readsEnd]
        simp [Except.toOption, hid]
      have hnext : (heard ++ [next]) ++ later <:+ lines := by simpa using hlines
      rw [if_pos hid]
      exact .lastWords heard next rfl (infix_of_suffix hnext) rfl hothers ⟨hid, hown _ hfirst⟩
    · rw [if_neg hid]
      exact .closed heard next.bytes closedOutput rfl (infix_of_suffix hlines) rfl hpart hothers
  obtain ⟨error, herror⟩ := next.cutShort rest hrest hwhole hne
  have hexamine : examine fromStr id rest = some (.error error) := by
    unfold examine
    rw [herror]
  rw [hexamine]
  exact .closed heard rest error rfl (infix_of_suffix hlines) rfl hpart hothers

/-- A request that starts at a line reads whole messages, and leaves off at a line. -/
theorem attended_respond (htodo : todo <:+ lines) {chunks : List (List UInt8)}
    (haligned : chunks.flatten ++ future <+: stream todo)
    (hundisturbed : Undisturbed fromStr id closes chunks.flatten) :
    Attended lines id method closes chunks.flatten (respond fromStr id method closes [] chunks).1
        (respond fromStr id method closes [] chunks).2 ∧
      ∃ todo' : List (ServerLine fromStr), todo' <:+ lines ∧
        (respond fromStr id method closes [] chunks).2 ++ (if closes then [] else future) <+:
          stream todo' := by
  have hheard := heard_consume id haligned
  rw [respond_flatten]
  generalize chunks.flatten = available at *
  generalize consume fromStr id [] available = progress at hheard ⊢
  cases hheard with
  | answered heard last later rest hsplit havailable hothers hown =>
    subst hsplit havailable
    have hresponse : IsResponse id last.value :=
      ⟨hown, hundisturbed.own _ (firstWithId_answered hothers hown closes rest)⟩
    have hwhole : (heard ++ [last]) ++ later <:+ lines := by simpa using htodo
    have hlater : rest ++ future <+: stream later := by
      rw [show heard ++ last :: later = (heard ++ [last]) ++ later by simp,
        stream_append (heard ++ [last]), append_assoc] at haligned
      exact (prefix_append_right_inj _).mp haligned
    exact ⟨.answered heard last rest (infix_of_suffix hwhole) rfl hothers hresponse,
      later, (suffix_append _ _).trans hwhole, shorten closes hlater⟩
  | waiting heard later rest hsplit havailable hothers hrest =>
    subst hsplit havailable
    have hpart : newline ∉ rest := by
      rcases hrest with rfl | ⟨next, -, hnext⟩
      · simp
      · exact fun hmem => next.oneLine (hnext.subset hmem)
    have hfirst : firstWithId fromStr id (readable closes (stream heard ++ rest)) = _ :=
      firstWithId_waiting hothers hpart
    have hlater : rest ++ future <+: stream later := by
      rw [stream_append, append_assoc] at haligned
      exact (prefix_append_right_inj _).mp haligned
    dsimp only [respond]
    cases closes with
    | false =>
      have hnone : rest = [] := by
        have hcut := hundisturbed.boundary hfirst rfl
        rwa [cutLines_stream, cutLines_of_notMem hpart] at hcut
      subst hnone
      refine ⟨?_, later, (suffix_append _ _).trans htodo, hlater⟩
      exact .timedOut heard rfl (infix_of_suffix htodo) (append_nil _) hothers
    | true =>
      refine ⟨?_, later, (suffix_append _ _).trans htodo, ?_⟩
      · by_cases hne : rest = []
        · subst hne
          exact .closed heard [] closedOutput rfl (infix_of_suffix htodo) rfl hpart hothers
        · rcases hrest with hnil | ⟨next, hhead, hnext⟩
          · exact absurd hnil hne
          · obtain ⟨later', rfl⟩ := head?_eq_some_iff.mp hhead
            rw [if_pos rfl, if_neg hne]
            refine attended_end htodo hnext hne hothers fun value hvalue => ?_
            refine hundisturbed.own value ?_
            rw [hfirst, if_pos ⟨rfl, hne⟩]
            exact hvalue
      · rw [if_pos rfl]
        split
        · simp
        · simp

end

/-! ### Runs -/

def available (server : CodexAppServer) (outside : CodexOutside) : List UInt8 :=
  (server.unread :: server.arriving outside).flatten

/-- The call is a request that goes out, and waits for its response. -/
def CodexCall.Waits (call : CodexCall) (method : String) : Prop :=
  (∃ params, call.message = .request method params) ∧ call.outside.tryWait = .ok none ∧
    call.outside.write = .ok ()

abbrev CodexStep : Type := Taken CodexAppServer CodexCall (Except NodeError Json)

/-- The wait of the call is not disturbed. -/
def StepUndisturbed (fromStr : String → Except String Json) (e : CodexStep) : Prop :=
  ∀ method, e.input.Waits method →
    Undisturbed fromStr e.before.freshId (e.before.closing e.input.outside)
      (available e.before e.input.outside)

/-- The call gets what its response says. -/
def StepAttended (lines : List (ServerLine fromStr)) (e : CodexStep) : Prop :=
  ∀ method, e.input.Waits method →
    Attended lines e.before.freshId method (e.before.closing e.input.outside)
      (available e.before e.input.outside) e.output e.after.unread

/-- What is unread, and what is still to come, starts with a message. -/
def Aligned (lines : List (ServerLine fromStr)) (server : CodexAppServer)
    (future : List UInt8) : Prop :=
  ∃ todo : List (ServerLine fromStr), todo <:+ lines ∧
    server.unread ++ (if server.closed then [] else future) <+: stream todo

def CodexCall.arrivals (call : CodexCall) : List UInt8 := call.outside.chunks.flatten

section
variable {lines : List (ServerLine fromStr)} {server : CodexAppServer} {future : List UInt8}
variable {call : CodexCall}

theorem Aligned.available (h : Aligned lines server (call.arrivals ++ future)) :
    ∃ todo : List (ServerLine fromStr), todo <:+ lines ∧
      available server call.outside ++ (if server.closed then [] else future) <+: stream todo := by
  obtain ⟨todo, htodo, hprefix⟩ := h
  refine ⟨todo, htodo, ?_⟩
  unfold Codex.available CodexAppServer.arriving
  cases hclosed : server.closed with
  | false =>
    rw [hclosed] at hprefix
    simpa [CodexCall.arrivals, append_assoc] using hprefix
  | true =>
    rw [hclosed] at hprefix
    simpa using hprefix

theorem closing_future (server : CodexAppServer) (outside : CodexOutside) (future : List UInt8) :
    (if server.closing outside then [] else if server.closed then [] else future) =
      if server.closing outside then [] else future := by
  unfold CodexAppServer.closing
  cases server.closed with
  | false | true => simp

theorem Aligned.unattended (h : Aligned lines server (call.arrivals ++ future)) {nextId : Nat}
    {written : List Json} :
    Aligned lines { server.unattended call.outside with nextId, written } future := by
  obtain ⟨todo, htodo, hprefix⟩ := h.available
  refine ⟨todo, htodo, ?_⟩
  have hshort := shorten (server.closing call.outside) hprefix
  rw [closing_future] at hshort
  exact hshort

/-- One call: it is attended to if it waits, and what it leaves starts with a message. -/
theorem step_attended (h : Aligned lines server (call.arrivals ++ future))
    (hundisturbed : StepUndisturbed fromStr (taken (serve fromStr) server call)) :
    StepAttended lines (taken (serve fromStr) server call) ∧
      Aligned lines (serve fromStr server call).1 future := by
  unfold StepAttended StepUndisturbed taken at *
  unfold serve
  cases hmessage : call.message with
  | notify method params =>
    refine ⟨fun method hwaits => ?_, ?_⟩
    · obtain ⟨⟨params, hrequest⟩, -⟩ := hwaits
      cases hmessage.symm.trans hrequest
    · dsimp only [CodexAppServer.notify]
      split
      · exact h.unattended
      · exact h.unattended
  | request method params =>
    dsimp only [CodexAppServer.request]
    split
    · rename_i error hwait
      refine ⟨fun method hwaits => ?_, h.unattended⟩
      cases hwait.symm.trans hwaits.2.1
    · rename_i status hwait
      refine ⟨fun method hwaits => ?_, h.unattended⟩
      cases hwait.symm.trans hwaits.2.1
    rename_i hwait
    split
    · rename_i error hwrite
      refine ⟨fun method hwaits => ?_, h.unattended⟩
      cases hwrite.symm.trans hwaits.2.2
    rename_i hwrite
    have hnow : call.Waits method := ⟨⟨params, hmessage⟩, hwait, hwrite⟩
    obtain ⟨todo, htodo, hprefix⟩ := h.available
    obtain ⟨hattended, todo', htodo', hprefix'⟩ :=
      attended_respond htodo hprefix (hundisturbed method hnow)
    rw [closing_future] at hprefix'
    refine ⟨fun other hwaits => ?_, todo', htodo', hprefix'⟩
    obtain ⟨⟨params', hother⟩, -⟩ := hwaits
    cases hmessage.symm.trans hother
    exact hattended

end

/-- In a run in which no wait is disturbed, every request that waits reads whole messages,
and returns what the first response with its id says. -/
theorem requests_attended {lines : List (ServerLine fromStr)} {calls : List CodexCall}
    (hstream : calls.flatMap CodexCall.arrivals <+: stream lines)
    (hundisturbed : ∀ e ∈ (run (serve fromStr) {} calls).2, StepUndisturbed fromStr e) :
    ∀ e ∈ (run (serve fromStr) {} calls).2, StepAttended lines e := by
  have hrun := run_induction (f := serve fromStr) (s := {}) (P := fun server past => ∀ future,
      (past.reverse.map Taken.input).flatMap CodexCall.arrivals ++ future <+: stream lines →
      (∀ e ∈ past, StepUndisturbed fromStr e) →
      Aligned lines server future ∧ ∀ e ∈ past, StepAttended lines e)
    (fun future hfuture _ => ⟨⟨lines, suffix_rfl, hfuture⟩, by simp⟩)
    (by
      intro server past call ih future hfuture hpast
      obtain ⟨hnow, hbefore⟩ := forall_mem_cons.mp hpast
      have hmore : (past.reverse.map Taken.input).flatMap CodexCall.arrivals ++
          (call.arrivals ++ future) <+: stream lines := by
        simpa [taken, append_assoc] using hfuture
      obtain ⟨haligned, hall⟩ := ih _ hmore hbefore
      obtain ⟨hattended, hnext⟩ := step_attended haligned hnow
      exact ⟨hnext, forall_mem_cons.mpr ⟨hattended, hall⟩⟩)
    calls
  refine (hrun [] ?_ hundisturbed).2
  rw [map_reverse, run_inputs, reverse_reverse, append_nil]
  exact hstream

/-! ### A time-out within a line -/

def turnText : String := "\x7b\"method\":\"turn\"\x7d"

def turnValue : Json := .object [("method", .string "turn")]

def replyText : String := "\x7b\"id\":2,\"result\":7\x7d"

def replyValue : Json := .object [("id", .number 2), ("result", .number 7)]

def twoMessages (text : String) : Except String Json :=
  if text = turnText ∨ text = turnText ++ "\n" then .ok turnValue
  else if text = replyText ∨ text = replyText ++ "\n" then .ok replyValue
  else .error "expected value at line 1 column 1"

theorem cutShort_of_take {bytes : List UInt8}
    (h : ∀ n < bytes.length, 0 < n → (parseLine fromStr (bytes.take n)).toOption = none) :
    ∀ part, part <+: bytes → part ≠ bytes → part ≠ [] →
      ∃ error, parseLine fromStr part = .error error := by
  intro part hpart hne hnil
  have htake := prefix_iff_eq_take.mp hpart
  have hlength : part.length < bytes.length := by
    refine lt_of_le_of_ne hpart.length_le fun heq => hne ?_
    rw [htake, heq, take_length]
  have hnone := h part.length hlength (length_pos_iff.mpr hnil)
  rw [← htake] at hnone
  cases hparse : parseLine fromStr part with
  | ok value => rw [hparse] at hnone; cases hnone
  | error error => exact ⟨error, rfl⟩

def turnLine : ServerLine twoMessages where
  bytes := utf8 turnText
  value := turnValue
  oneLine := by decide +kernel
  reads := rfl
  readsEnd := rfl
  cutShort := cutShort_of_take (by decide +kernel)

def replyLine : ServerLine twoMessages where
  bytes := utf8 replyText
  value := replyValue
  oneLine := by decide +kernel
  reads := rfl
  readsEnd := rfl
  cutShort := cutShort_of_take (by decide +kernel)

/-- A request whose time is up when so much of the output has come. -/
def listThreads (chunks : List (List UInt8)) : CodexCall where
  message := .request "thread/list" .null
  outside := { chunks }

/-- The time of the first request is up within a line, whose rest comes with the response to
the second one. -/
def timedOutWithinLine : List CodexCall :=
  [listThreads [(utf8 turnText).take 5],
    listThreads [(utf8 turnText).drop 5 ++ [newline] ++ utf8 replyText ++ [newline]]]

theorem listThreads_waits (chunks : List (List UInt8)) : (listThreads chunks).Waits "thread/list" :=
  ⟨⟨.null, rfl⟩, rfl, rfl⟩

/-- The second request reads the rest of that line, and fails. -/
theorem tail_read_as_line :
    timedOutWithinLine.flatMap CodexCall.arrivals = stream [turnLine, replyLine] ∧
      ∃ e ∈ (run (serve twoMessages) {} timedOutWithinLine).2,
        e.input.Waits "thread/list" ∧ e.before.freshId = 2 ∧
          e.output = .error (.json "expected value at line 1 column 1") ∧
          ¬StepAttended [turnLine, replyLine] e := by
  refine ⟨by decide +kernel, _, mem_cons_self, listThreads_waits _, rfl, rfl, ?_⟩
  intro hattended
  obtain ⟨message, h⟩ := (hattended "thread/list" (listThreads_waits _)).error rfl
  cases h

/-- A notification comes during the first request, and the response to the second one in
two pieces. -/
def twoRequests : List CodexCall :=
  [listThreads [utf8 turnText ++ [newline]],
    listThreads [(utf8 replyText).take 5, (utf8 replyText).drop 5 ++ [newline]]]

theorem requests_attended_pieces :
    twoRequests.length = 2 ∧ ∀ e ∈ (run (serve twoMessages) {} twoRequests).2,
      StepAttended [turnLine, replyLine] e := by
  refine ⟨rfl, requests_attended (by decide +kernel) ?_⟩
  intro e he method hwaits
  rcases mem_cons.mp he with rfl | he
  · refine ⟨?_, fun _ _ => rfl⟩
    rintro value hvalue
    obtain rfl : replyValue = value := Option.some.inj hvalue
    rfl
  obtain rfl := mem_singleton.mp he
  refine ⟨?_, fun _ _ => rfl⟩
  rintro value hvalue
  cases hvalue

end Diri.Codex
