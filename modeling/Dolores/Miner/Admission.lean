import Mathlib.Data.List.Induction
import Dolores.Miner.Verifier
import Dolores.Archive.World

/-!
# The request admission layer (`miner_cli.py`)

`RequestAdmissionMiddleware` stands before the application.  A call of it is `start`, up to the
loop, and then `receive` for each message the server hands over; `run` is the call after the
messages so far, so that a statement about `run` for every list of messages is a statement about
every moment of every call.

* `Arrives`             the chunks up to the first without `more_body` come before any disconnect;
* `Forwardable`         when the application is to be called, and with which body;
* `callApp_mem_foldl_iff`   the loop, from any chunks that it has already read;
* `forwards_exactly_the_bounded_body`   the admission layer as a whole.
-/

namespace Dolores

def maxRequestBodyBytes : Int := 64 * 1024

/-! ## the interface of the server -/

def bytesLower (raw : Bytes) : Bytes := raw.map fun b => if 65 ≤ b ∧ b ≤ 90 then b + 32 else b

/-- `int(value)` of bytes, which takes ASCII only -/
def intOfBytes (raw : Bytes) : Option Int :=
  if raw.any fun b => 128 ≤ b then none
  else parseInt (String.ofList (raw.map fun b => Char.ofNat b.toNat))

structure Scope where
  type : Option String
  client : Option (String × Int) := none
  headers : List (Bytes × Bytes) := []

/-- what `receive()` returns -/
structure Message where
  type : Option String
  body : Option Bytes := none
  moreBody : Option Bool := none
deriving DecidableEq

def Message.request (body : Bytes) (moreBody : Bool) : Message :=
  { type := some "http.request", body := some body, moreBody := some moreBody }

/-- what `send(..)` is given -/
inductive Reply where
  | start (status : Int) (headers : List (Bytes × Bytes))
  | body (raw : Bytes) (moreBody : Bool)
deriving DecidableEq

/-- `replay_receive` with its variables -/
structure ReplayReceive where
  body : Bytes
  delivered : Bool := false
deriving DecidableEq

def ReplayReceive.receive (r : ReplayReceive) : Message × ReplayReceive :=
  if r.delivered = false then (.request r.body false, { r with delivered := true })
  else (.request [] false, r)

/-- the messages of the first reads -/
def ReplayReceive.reads : Nat → ReplayReceive → List Message
  | 0, _ => []
  | n + 1, r => r.receive.1 :: reads n r.receive.2

inductive Channel where
  | server
  | replay (r : ReplayReceive)
deriving DecidableEq

inductive Action where
  | send (reply : Reply)
  | callApp (receive : Channel)
deriving DecidableEq

def Action.channel : Action → Option Channel
  | .send _ => none
  | .callApp receive => some receive

/-! ## the middleware -/

structure RequestAdmissionMiddleware where
  maxBytes : Int := maxRequestBodyBytes
  limiter : TokenBucketLimiter

/-- the bytes of an ASCII text -/
def asciiBytes (text : String) : Bytes := text.toList.map fun c => UInt8.ofNat c.toNat

def contentLength : Bytes := asciiBytes "content-length"

/-- `_send_admission_error` -/
def sendAdmissionError (status : Int) (detail : String) : List Action :=
  let body := asciiBytes ("\x7b\"detail\":" ++ quote detail ++ "\x7d")
  [.send (.start status [
      (asciiBytes "content-type", asciiBytes "application/json"),
      (contentLength, asciiBytes (toString body.length))]),
    .send (.body body false)]

/-- a call that is in the loop, or has returned -/
structure AdmissionCall where
  inLoop : Bool
  body : Bytes := []
  actions : List Action := []

/-- the channels with which the application was called -/
def AdmissionCall.appCalls (call : AdmissionCall) : List Channel :=
  call.actions.filterMap Action.channel

def sourceIp (scope : Scope) : String := (scope.client.getD ("unknown", 0)).1

def Scope.headerDict (scope : Scope) : Dict Bytes Bytes :=
  Dict.ofPairs (scope.headers.map fun p => (bytesLower p.1, p.2))

namespace RequestAdmissionMiddleware

/-- the check of the declared length; nothing when the call goes on to the loop -/
def checkDeclared (mw : RequestAdmissionMiddleware) (scope : Scope) : List Action :=
  match Dict.get? scope.headerDict contentLength with
  | none => []
  | some value =>
    match intOfBytes value with
    | none => sendAdmissionError 400 "invalid content length"
    | some declared =>
      if declared > mw.maxBytes then sendAdmissionError 413 "request body too large" else []

/-- `__call__` up to the loop, with the reading of the clock in `allow` -/
def start (mw : RequestAdmissionMiddleware) (scope : Scope) (now : ℚ) :
    AdmissionCall × RequestAdmissionMiddleware :=
  if scope.type ≠ some "http" then ({ inLoop := false, actions := [.callApp .server] }, mw)
  else
    let r := mw.limiter.allow (sourceIp scope) now
    let mw := { mw with limiter := r.2 }
    if r.1 = false then
      ({ inLoop := false, actions := sendAdmissionError 429 "request rate exceeded" }, mw)
    else
      let error := mw.checkDeclared scope
      ({ inLoop := error.isEmpty, actions := error }, mw)

end RequestAdmissionMiddleware

namespace AdmissionCall

/-- one turn of the loop -/
def receive (maxBytes : Int) (call : AdmissionCall) (message : Message) : AdmissionCall :=
  if call.inLoop = false then call
  else if message.type = some "http.disconnect" then { call with inLoop := false }
  else if message.type ≠ some "http.request" then call
  else
    let chunk := message.body.getD []
    if maxBytes < (call.body.length + chunk.length : Int) then
      { call with inLoop := false,
                  actions := call.actions ++ sendAdmissionError 413 "request body too large" }
    else
      let body := call.body ++ chunk
      if message.moreBody.getD false then { call with body }
      else { inLoop := false, body, actions := call.actions ++ [.callApp (.replay { body })] }

end AdmissionCall

def RequestAdmissionMiddleware.run (mw : RequestAdmissionMiddleware) (scope : Scope) (now : ℚ)
    (messages : List Message) : AdmissionCall :=
  messages.foldl (AdmissionCall.receive mw.maxBytes) (mw.start scope now).1

/-! ## what is to be forwarded -/

abbrev Message.isRequest (m : Message) : Prop := m.type = some "http.request"

abbrev Message.isDisconnect (m : Message) : Prop := m.type = some "http.disconnect"

def Message.more (m : Message) : Bool := m.moreBody.getD false

/-- the bytes that a message adds to the body -/
def Message.chunk (m : Message) : Bytes := if m.isRequest then m.body.getD [] else []

/-- the message neither ends the body nor breaks the request off -/
def Message.GoesOn (m : Message) : Prop := ¬ m.isDisconnect ∧ (m.isRequest → m.more = true)

/-- the chunks up to the first without `more_body` are there, and their concatenation is `body` -/
def Arrives (messages : List Message) (body : Bytes) : Prop :=
  ∃ before last after, messages = before ++ last :: after ∧ (∀ m ∈ before, m.GoesOn) ∧
    last.isRequest ∧ last.more = false ∧ body = (before ++ [last]).flatMap Message.chunk

/-- the last value of the header -/
def lastContentLength (headers : List (Bytes × Bytes)) : Option Bytes :=
  ((headers.filter fun p => bytesLower p.1 = contentLength).getLast?).map Prod.snd

/-- the declared length is missing, or an integer within the limit -/
def RequestAdmissionMiddleware.DeclaredFits (mw : RequestAdmissionMiddleware) (scope : Scope) :
    Prop :=
  ∀ value, lastContentLength scope.headers = some value →
    ∃ n, intOfBytes value = some n ∧ n ≤ mw.maxBytes

structure Forwardable (mw : RequestAdmissionMiddleware) (scope : Scope) (now : ℚ)
    (messages : List Message) (body : Bytes) : Prop where
  admitted : (mw.limiter.allow (sourceIp scope) now).1 = true
  declared : mw.DeclaredFits scope
  arrives : Arrives messages body
  small : (body.length : Int) ≤ mw.maxBytes

theorem get?_headerDict (scope : Scope) :
    Dict.get? scope.headerDict contentLength = lastContentLength scope.headers := by
  unfold Scope.headerDict lastContentLength
  induction scope.headers using List.reverseRecOn with
  | nil => rfl
  | append_singleton headers p ih =>
    have hset : Dict.ofPairs ((headers ++ [p]).map fun p => (bytesLower p.1, p.2)) = Dict.set
        (Dict.ofPairs (headers.map fun p => (bytesLower p.1, p.2))) (bytesLower p.1) p.2 := by
      unfold Dict.ofPairs
      rw [List.map_append, List.foldl_append]
      rfl
    rw [hset, Dict.get?_set, List.filter_append]
    by_cases h : bytesLower p.1 = contentLength
    · rw [if_pos (by simpa using h.symm), List.filter_cons_of_pos (by simpa using h)]
      rw [List.filter_nil, List.getLast?_append]
      rfl
    · rw [if_neg (by simpa using Ne.symm h), List.filter_cons_of_neg (by simpa using h)]
      rw [List.filter_nil, List.append_nil]
      exact ih

theorem arrives_cons {m : Message} {messages : List Message} {body : Bytes} :
    Arrives (m :: messages) body ↔
      (m.isRequest ∧ m.more = false ∧ body = m.chunk) ∨
        m.GoesOn ∧ ∃ rest, Arrives messages rest ∧ body = m.chunk ++ rest := by
  constructor
  · intro h
    obtain ⟨before, last, after, hsplit, hbefore, hlast, hmore, hbody⟩ := h
    cases before with
    | nil =>
      obtain ⟨rfl, rfl⟩ := List.cons.inj hsplit
      rw [List.nil_append, List.flatMap_singleton] at hbody
      exact .inl ⟨hlast, hmore, hbody⟩
    | cons d before =>
      obtain ⟨rfl, rfl⟩ := List.cons.inj hsplit
      refine .inr ⟨hbefore _ List.mem_cons_self, _, ⟨before, last, after, rfl, ?_, hlast, hmore,
        rfl⟩, hbody⟩
      exact fun x hx => hbefore x (List.mem_cons_of_mem _ hx)
  · intro h
    rcases h with ⟨hlast, hmore, hbody⟩ | ⟨hgoes, rest, harrives, hbody⟩
    · refine ⟨[], m, messages, rfl, fun x hx => (List.not_mem_nil hx).elim, hlast, hmore, ?_⟩
      rw [List.nil_append, List.flatMap_singleton]
      exact hbody
    · obtain ⟨before, last, after, rfl, hbefore, hlast, hmore, rfl⟩ := harrives
      refine ⟨m :: before, last, after, rfl, fun x hx => ?_, hlast, hmore, hbody⟩
      rcases List.mem_cons.mp hx with rfl | hx
      · exact hgoes
      · exact hbefore x hx

theorem not_arrives_nil (body : Bytes) : ¬ Arrives [] body := by
  intro h
  obtain ⟨before, last, after, hsplit, _⟩ := h
  exact List.append_ne_nil_of_right_ne_nil before (List.cons_ne_nil last after) hsplit.symm

/-! ## the loop -/

namespace AdmissionCall
variable {maxBytes : Int} {call : AdmissionCall} {m : Message} {messages : List Message}

theorem receive_returned (h : call.inLoop = false) (m : Message) :
    receive maxBytes call m = call := if_pos h

theorem receive_disconnect (hloop : call.inLoop = true) (h : m.isDisconnect) :
    receive maxBytes call m = { call with inLoop := false } := by
  unfold receive
  rw [if_neg (by rw [hloop]; decide), if_pos h]

theorem receive_other (h : ¬ m.isDisconnect) (h' : ¬ m.isRequest) :
    receive maxBytes call m = call := by
  unfold receive
  rw [if_neg h, if_pos h', ite_self]

theorem chunk_of_request (h : m.isRequest) : m.chunk = m.body.getD [] := if_pos h

theorem not_disconnect_of_request (h : m.isRequest) : ¬ m.isDisconnect := by
  intro h'
  have heq : some "http.request" = some "http.disconnect" := h.symm.trans h'
  exact absurd heq (by decide)

/-- a chunk -/
theorem receive_request (hloop : call.inLoop = true) (h : m.isRequest) :
    receive maxBytes call m =
      if maxBytes < (call.body.length + m.chunk.length : Int) then
        { call with inLoop := false,
                    actions := call.actions ++ sendAdmissionError 413 "request body too large" }
      else if m.more = true then { call with body := call.body ++ m.chunk }
      else { inLoop := false, body := call.body ++ m.chunk,
             actions := call.actions ++
               [.callApp (.replay { body := call.body ++ m.chunk })] } := by
  unfold receive
  rw [if_neg (by rw [hloop]; decide), if_neg (not_disconnect_of_request h),
    if_neg (not_not.mpr h), chunk_of_request h]
  rfl

theorem foldl_returned (h : call.inLoop = false) (messages : List Message) :
    messages.foldl (receive maxBytes) call = call := by
  induction messages with
  | nil => rfl
  | cons m messages ih => rw [List.foldl_cons, receive_returned h, ih]

theorem appCalls_error (status : Int) (detail : String) :
    (sendAdmissionError status detail).filterMap Action.channel = [] := rfl

theorem appCalls_append (actions more : List Action) (inLoop : Bool) (body : Bytes) :
    appCalls { inLoop, body, actions := actions ++ more } =
      actions.filterMap Action.channel ++ more.filterMap Action.channel :=
  List.filterMap_append

/-- the loop, when it has read `call.body` and called nothing: a call of the application is for
the chunks that arrive -/
theorem callApp_mem_foldl_iff (hloop : call.inLoop = true) (hcalls : call.appCalls = [])
    (channel : Channel) :
    channel ∈ (messages.foldl (receive maxBytes) call).appCalls ↔
      ∃ rest, Arrives messages rest ∧ (call.body.length + rest.length : Int) ≤ maxBytes ∧
        channel = .replay { body := call.body ++ rest } := by
  induction messages generalizing call with
  | nil =>
    rw [List.foldl_nil, hcalls]
    refine iff_of_false List.not_mem_nil fun h => ?_
    obtain ⟨rest, harrives, _⟩ := h
    exact not_arrives_nil rest harrives
  | cons m messages ih =>
    rw [List.foldl_cons]
    by_cases hdisconnect : m.isDisconnect
    · rw [receive_disconnect hloop hdisconnect, foldl_returned rfl]
      refine iff_of_false (by rw [appCalls] at hcalls ⊢; rw [hcalls]; exact List.not_mem_nil) ?_
      intro h
      obtain ⟨rest, harrives, _⟩ := h
      rcases arrives_cons.mp harrives with ⟨hrequest, _⟩ | ⟨hgoes, _⟩
      · exact not_disconnect_of_request hrequest hdisconnect
      · exact hgoes.1 hdisconnect
    by_cases hrequest : m.isRequest
    · rw [receive_request hloop hrequest]
      by_cases hover : maxBytes < (call.body.length + m.chunk.length : Int)
      · -- the chunk is over the limit, and so is every body that begins with it
        rw [if_pos hover, foldl_returned rfl, appCalls_append, appCalls_error]
        rw [List.append_nil]
        refine iff_of_false (by rw [← appCalls, hcalls]; exact List.not_mem_nil) fun h => ?_
        obtain ⟨rest, harrives, hsmall, _⟩ := h
        rcases arrives_cons.mp harrives with ⟨_, _, rfl⟩ | ⟨_, rest', _, rfl⟩
        · omega
        · rw [List.length_append] at hsmall
          omega
      rw [if_neg hover]
      by_cases hmore : m.more = true
      · rw [if_pos hmore]
        refine (@ih { call with body := call.body ++ m.chunk } hloop hcalls).trans ?_
        dsimp only
        constructor
        · intro h
          obtain ⟨rest, harrives, hsmall, rfl⟩ := h
          refine ⟨m.chunk ++ rest, arrives_cons.mpr (.inr ⟨⟨hdisconnect, fun _ => hmore⟩, rest,
            harrives, rfl⟩), ?_, by rw [List.append_assoc]⟩
          rw [List.length_append] at hsmall ⊢
          omega
        · intro h
          obtain ⟨rest, harrives, hsmall, rfl⟩ := h
          rcases arrives_cons.mp harrives with ⟨_, hlast, _⟩ | ⟨_, rest', harrives', rfl⟩
          · exact absurd (hmore.symm.trans hlast) (by decide)
          · refine ⟨rest', harrives', ?_, by rw [List.append_assoc]⟩
            rw [List.length_append] at hsmall ⊢
            omega
      · -- the last chunk
        rw [if_neg hmore, foldl_returned rfl, appCalls_append, ← appCalls, hcalls]
        have hlast : m.more = false := by simpa using hmore
        show channel ∈ [Channel.replay { body := call.body ++ m.chunk }] ↔ _
        rw [List.mem_singleton]
        constructor
        · intro h
          exact ⟨m.chunk, arrives_cons.mpr (.inl ⟨hrequest, hlast, rfl⟩), not_lt.mp hover, h⟩
        · intro h
          obtain ⟨rest, harrives, _, rfl⟩ := h
          rcases arrives_cons.mp harrives with ⟨_, _, rfl⟩ | ⟨hgoes, _⟩
          · rfl
          · exact absurd (hlast.symm.trans (hgoes.2 hrequest)) (by decide)
    · rw [receive_other hdisconnect hrequest, ih hloop hcalls]
      have hchunk : m.chunk = [] := if_neg hrequest
      refine exists_congr fun rest => and_congr_left fun _ => ?_
      rw [arrives_cons, hchunk]
      constructor
      · intro h
        exact .inr ⟨⟨hdisconnect, fun h' => (hrequest h').elim⟩, rest, h, rfl⟩
      · intro h
        rcases h with ⟨h', _⟩ | ⟨_, rest', h', heq⟩
        · exact (hrequest h').elim
        · rw [heq]
          exact h'

/-- the loop calls the application at most once, and then it is over -/
def CalledOnce (call : AdmissionCall) : Prop :=
  call.appCalls.length ≤ 1 ∧ (call.inLoop = true → call.appCalls = [])

theorem CalledOnce.receive (h : call.CalledOnce) (m : Message) :
    (receive maxBytes call m).CalledOnce := by
  cases hloop : call.inLoop with
  | false =>
    rw [receive_returned hloop]
    exact h
  | true =>
    have hcalls := h.2 hloop
    by_cases hdisconnect : m.isDisconnect
    · rw [receive_disconnect hloop hdisconnect]
      exact ⟨h.1, fun hin => absurd hin Bool.false_ne_true⟩
    by_cases hrequest : m.isRequest
    · rw [receive_request hloop hrequest]
      split
      · refine ⟨?_, fun hin => absurd hin Bool.false_ne_true⟩
        rw [appCalls_append, appCalls_error, List.append_nil]
        exact h.1
      · split
        · exact h
        · refine ⟨?_, fun hin => absurd hin Bool.false_ne_true⟩
          rw [appCalls_append, ← appCalls, hcalls]
          exact le_rfl
    · rw [receive_other hdisconnect hrequest]
      exact h

theorem CalledOnce.foldl (h : call.CalledOnce) (messages : List Message) :
    (messages.foldl (AdmissionCall.receive maxBytes) call).CalledOnce := by
  induction messages generalizing call with
  | nil => exact h
  | cons m messages ih => exact ih (h.receive m)

/-- a buffer that is not empty is within the limit -/
def WithinLimit (maxBytes : Int) (call : AdmissionCall) : Prop :=
  (call.body.length : Int) ≤ max 0 maxBytes

theorem WithinLimit.receive (h : WithinLimit maxBytes call) (m : Message) :
    WithinLimit maxBytes (receive maxBytes call m) := by
  cases hloop : call.inLoop with
  | false =>
    rw [receive_returned hloop]
    exact h
  | true =>
    by_cases hdisconnect : m.isDisconnect
    · rw [receive_disconnect hloop hdisconnect]
      exact h
    by_cases hrequest : m.isRequest
    · rw [receive_request hloop hrequest]
      split
      · exact h
      next hsmall =>
        have hbody : ((call.body ++ m.chunk).length : Int) ≤ max 0 maxBytes := by
          rw [List.length_append, Nat.cast_add]
          exact le_trans (not_lt.mp hsmall) (le_max_right _ _)
        split
        · exact hbody
        · exact hbody
    · rw [receive_other hdisconnect hrequest]
      exact h

theorem WithinLimit.foldl (h : WithinLimit maxBytes call) (messages : List Message) :
    WithinLimit maxBytes (messages.foldl (AdmissionCall.receive maxBytes) call) := by
  induction messages generalizing call with
  | nil => exact h
  | cons m messages ih => exact ih (h.receive m)

end AdmissionCall

/-! ## the call -/

namespace RequestAdmissionMiddleware
variable {mw : RequestAdmissionMiddleware} {scope : Scope} {now : ℚ}

/-- a declared length that fits raises no objection, and any other is answered with an error -/
theorem checkDeclared_cases (mw : RequestAdmissionMiddleware) (scope : Scope) :
    (mw.DeclaredFits scope ∧ mw.checkDeclared scope = []) ∨
      ¬ mw.DeclaredFits scope ∧
        ∃ status detail, mw.checkDeclared scope = sendAdmissionError status detail := by
  unfold checkDeclared
  rw [get?_headerDict]
  unfold DeclaredFits
  cases hlast : lastContentLength scope.headers with
  | none => exact .inl ⟨(fun _ h => nomatch h), rfl⟩
  | some value =>
    dsimp only
    cases hint : intOfBytes value with
    | none =>
      refine .inr ⟨fun h => ?_, _, _, rfl⟩
      obtain ⟨n, hn, _⟩ := h value rfl
      exact nomatch hint.symm.trans hn
    | some declared =>
      dsimp only
      by_cases hlarge : declared > mw.maxBytes
      · refine .inr ⟨fun h => ?_, _, _, if_pos hlarge⟩
        obtain ⟨n, hn, hle⟩ := h value rfl
        rw [Option.some.inj (hint.symm.trans hn)] at hlarge
        exact absurd hle (not_le.mpr hlarge)
      · refine .inl ⟨fun v hv => ⟨declared, ?_, not_lt.mp hlarge⟩, if_neg hlarge⟩
        rw [← Option.some.inj hv]
        exact hint

theorem start_cases (hhttp : scope.type = some "http") :
    ((mw.limiter.allow (sourceIp scope) now).1 = true ∧ mw.DeclaredFits scope ∧
      (mw.start scope now).1 = { inLoop := true }) ∨
    ¬ ((mw.limiter.allow (sourceIp scope) now).1 = true ∧ mw.DeclaredFits scope) ∧
      ∃ status detail, (mw.start scope now).1 =
        { inLoop := false, actions := sendAdmissionError status detail } := by
  unfold start
  rw [if_neg (not_not.mpr hhttp)]
  dsimp only
  cases hallow : (mw.limiter.allow (sourceIp scope) now).1 with
  | false => exact .inr ⟨fun h => absurd h.1 Bool.false_ne_true, _, _, rfl⟩
  | true =>
    rw [if_neg (by decide)]
    rcases checkDeclared_cases { mw with limiter := (mw.limiter.allow (sourceIp scope) now).2 }
      scope with ⟨hfits, herror⟩ | ⟨hfits, status, detail, herror⟩
    · rw [herror]
      exact .inl ⟨rfl, hfits, rfl⟩
    · rw [herror]
      exact .inr ⟨fun h => hfits h.2, status, detail, rfl⟩

end RequestAdmissionMiddleware

theorem ReplayReceive.reads_new (body : Bytes) (n : Nat) :
    ReplayReceive.reads (n + 1) { body } =
      .request body false :: List.replicate n (.request [] false) := by
  have hdone : ∀ n, ReplayReceive.reads n { body, delivered := true } =
      List.replicate n (.request [] false) := by
    intro n
    induction n with
    | zero => rfl
    | succ n ih =>
      rw [List.replicate_succ, ← ih]
      rfl
  rw [← hdone n]
  rfl

/-- for every limit, scope, header list and sequence of messages: the application is called at
most once; exactly when the request is to be forwarded; it reads the concatenated chunks as one
complete body; and what is buffered is within the limit -/
theorem forwards_exactly_the_bounded_body (mw : RequestAdmissionMiddleware) (scope : Scope)
    (now : ℚ) (messages : List Message) (hhttp : scope.type = some "http") :
    let call := mw.run scope now messages
    call.appCalls.length ≤ 1 ∧
    (∀ channel, channel ∈ call.appCalls ↔ ∃ body, channel = .replay { body } ∧
      Forwardable mw scope now messages body) ∧
    (∀ body n, ReplayReceive.reads (n + 1) { body } =
      .request body false :: List.replicate n (.request [] false)) ∧
    (call.body.length : Int) ≤ max 0 mw.maxBytes := by
  intro call
  have hcall : call = messages.foldl (AdmissionCall.receive mw.maxBytes) (mw.start scope now).1 :=
    rfl
  rcases @RequestAdmissionMiddleware.start_cases mw scope now hhttp with
    ⟨hallow, hfits, hstart⟩ | ⟨hrefused, status, detail, hstart⟩
  · rw [hstart] at hcall
    rw [hcall]
    refine ⟨(@AdmissionCall.CalledOnce.foldl _ { inLoop := true }
        ⟨Nat.zero_le 1, fun _ => rfl⟩ messages).1,
      fun channel => ?_, ReplayReceive.reads_new,
      AdmissionCall.WithinLimit.foldl (le_max_left 0 _) messages⟩
    refine (AdmissionCall.callApp_mem_foldl_iff rfl rfl channel).trans ?_
    constructor
    · intro h
      obtain ⟨body, harrives, hsmall, heq⟩ := h
      refine ⟨body, heq, hallow, hfits, harrives, ?_⟩
      simpa using hsmall
    · intro h
      obtain ⟨body, heq, hforward⟩ := h
      refine ⟨body, hforward.arrives, ?_, heq⟩
      simpa using hforward.small
  · rw [hstart, AdmissionCall.foldl_returned rfl] at hcall
    rw [hcall]
    refine ⟨Nat.zero_le 1, fun channel => ?_, ReplayReceive.reads_new, le_max_left 0 _⟩
    refine iff_of_false List.not_mem_nil fun h => ?_
    obtain ⟨body, _, hforward⟩ := h
    exact hrefused ⟨hforward.admitted, hforward.declared⟩

/-- two chunks of three bytes in all, where eight are allowed -/
theorem forwards_exactly_the_bounded_body_sample :
    let mw : RequestAdmissionMiddleware :=
      { maxBytes := 8, limiter := { burst := 10, ratePerSecond := 1 } }
    let messages := [Message.request [1, 2] true, { type := none }, .request [3] false]
    let call := mw.run { type := some "http" } 0 messages
    call.appCalls.length ≤ 1 ∧ call.appCalls = [.replay { body := [1, 2, 3] }] :=
  ⟨(forwards_exactly_the_bounded_body _ _ _ _ rfl).1, by decide +kernel⟩

end Dolores
