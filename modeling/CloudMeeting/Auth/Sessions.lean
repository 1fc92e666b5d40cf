/-
The sessions of the login server.

Every connection has a session, which reads a request, handles it, writes the response and
reads on if the connection is kept.  While one session waits for its socket others are served,
and all of them log people in with one service, which records each login in one table.

`sessions_answer` says that whatever the order in which they come, every session answers its own
requests, once each and in order, and that the table has what they insert in the order in which
they were handled.  So the table knows who was let in (`trail`): for each success in it a
user's data went out, and there is one for each time they did unless an insertion threw.
-/
import CloudMeeting.Auth.Audit
import CloudMeeting.Lib.Run
import Mathlib.Logic.Function.Basic

namespace CloudMeeting.Auth

/-! ### The service on a session -/

/-- A request that a session has read, with the database and the address of the peer as they are
when it is handled. -/
structure Turn where
  session : Nat
  request : Request
  db : Database
  remote : Option String := none

section Turns

variable (sha256 : String → Bytes) (parse : String → Option Json)

def Turn.response (turn : Turn) : Response :=
  handleRequest sha256 parse turn.db turn.remote turn.request

/-- The login that the handler makes, if it makes one. -/
def Turn.attempt (turn : Turn) : Option Attempt :=
  if turn.request.method = .post ∧ turn.request.target = "/api/login" then
    (parseLoginRequest parse turn.request.body).map fun named =>
      login sha256 turn.db named.1 named.2 (turn.remote.getD "unknown")
        (turn.request.userAgent.getD "")
  else none

/-- The row that a call inserts, if it does. -/
def LogCall.row (db : Database) (call : LogCall) : Option LogRow :=
  match insertLoginLog db call with
  | .ok row => row
  | .error _ => none

/-- The rows that are inserted. -/
def Turn.rows (turn : Turn) : List LogRow :=
  ((turn.attempt sha256 parse).elim [] (·.calls)).filterMap (LogCall.row turn.db)

end Turns

/-! ### Sessions -/

inductive Phase where
  /-- `async_read` is waiting. -/
  | reading
  /-- `async_write` is waiting. -/
  | writing (response : Response)
  | closed

structure HttpSession where
  phase : Phase := .reading
  written : List Response := []

/-- The sessions by the order of their connections, and the table. -/
structure HttpServer where
  accepted : Nat := 0
  sessions : Nat → Option HttpSession := fun _ => none
  log : List LogRow := []

inductive SessionEvent where
  /-- `async_accept` is done. -/
  | accept
  /-- `async_read` is done. -/
  | onRead (turn : Turn)
  /-- The stream has ended, or it cannot be read. -/
  | readError (session : Nat)
  /-- `async_write` is done. -/
  | onWrite (session : Nat)
  | writeError (session : Nat)

/-- The requests handled in the order in which they were. -/
def handled (es : List SessionEvent) : List Turn :=
  es.filterMap fun
    | .onRead turn => some turn
    | _ => none

namespace HttpServer

def set (server : HttpServer) (i : Nat) (session : HttpSession) : HttpServer :=
  { server with sessions := Function.update server.sessions i (some session) }

variable (sha256 : String → Bytes) (parse : String → Option Json)

/-- One completion, unless nothing of the kind is waited for. -/
def step (server : HttpServer) : SessionEvent → Option HttpServer
  | .accept => some { server.set server.accepted {} with accepted := server.accepted + 1 }
  | .onRead turn =>
      match server.sessions turn.session with
      | some ⟨.reading, written⟩ =>
          some { server.set turn.session ⟨.writing (turn.response sha256 parse), written⟩ with
            log := server.log ++ turn.rows sha256 parse }
      | _ => none
  | .readError i =>
      match server.sessions i with
      | some ⟨.reading, written⟩ => some (server.set i ⟨.closed, written⟩)
      | _ => none
  | .onWrite i =>
      match server.sessions i with
      | some ⟨.writing response, written⟩ =>
          let phase := if response.keepAlive then .reading else .closed
          some (server.set i ⟨phase, written ++ [response]⟩)
      | _ => none
  | .writeError i =>
      match server.sessions i with
      | some ⟨.writing _, written⟩ => some (server.set i ⟨.closed, written⟩)
      | _ => none

end HttpServer

/-! ### What a session has answered -/

/-- Those of the requests that were handled on a session. -/
def turnsOf (i : Nat) (turns : List Turn) : List Turn := turns.filter (·.session = i)

section Serving

variable (sha256 : String → Bytes) (parse : String → Option Json)

/-- What a session has written is the answers to its requests: to all of them while it waits for the
next one, to all but the one in hand while it writes, and in the end to all or to all but the
last.  No request is read behind one that does not keep the connection. -/
inductive Serves (turns : List Turn) : HttpSession → Prop
  | reading (hkept : ∀ turn ∈ turns, turn.request.keepAlive = true) :
      Serves turns ⟨.reading, turns.map (·.response sha256 parse)⟩
  | writing {before : List Turn} {turn : Turn} (hturns : turns = before ++ [turn])
      (hkept : ∀ turn ∈ before, turn.request.keepAlive = true) :
      Serves turns ⟨.writing (turn.response sha256 parse), before.map (·.response sha256 parse)⟩
  | closed {written : List Response}
      (hkept : ∀ turn ∈ turns.dropLast, turn.request.keepAlive = true)
      (hwritten : written = turns.map (·.response sha256 parse) ∨
        written = turns.dropLast.map (·.response sha256 parse)) :
      Serves turns ⟨.closed, written⟩

/-- What holds of the server when these requests have been handled. -/
structure Serving (turns : List Turn) (server : HttpServer) : Prop where
  serves : ∀ i session, server.sessions i = some session →
    Serves sha256 parse (turnsOf i turns) session
  /-- Numbers that have not been given away are nobody's. -/
  fresh : ∀ i, server.accepted ≤ i → server.sessions i = none ∧ turnsOf i turns = []
  log : server.log = turns.flatMap (·.rows sha256 parse)

end Serving

variable {sha256 : String → Bytes} {parse : String → Option Json} {server server' : HttpServer}
variable {turns : List Turn}

/-- A response is kept open exactly if the request is. -/
theorem Turn.response_keepAlive (turn : Turn) :
    (turn.response sha256 parse).keepAlive = turn.request.keepAlive := by
  unfold Turn.response handleRequest
  split_ifs
  · rfl
  · rfl
  · cases parseLoginRequest parse turn.request.body <;> rfl
  · rfl

theorem HttpServer.set_self (server : HttpServer) (i : Nat) (session : HttpSession) :
    (server.set i session).sessions i = some session := by
  simp [HttpServer.set]

theorem HttpServer.set_of_ne (server : HttpServer) {i j : Nat} (h : j ≠ i)
    (session : HttpSession) : (server.set i session).sessions j = server.sessions j := by
  simp [HttpServer.set, h]

theorem turnsOf_append (i : Nat) (turns : List Turn) (turn : Turn) :
    turnsOf i (turns ++ [turn]) = turnsOf i turns ++ if turn.session = i then [turn] else [] := by
  rw [turnsOf, List.filter_append, turnsOf]
  congr 1
  by_cases h : turn.session = i <;> simp [h]

namespace Serves

/-- A session that waits for a request may be closed. -/
theorem readError {written : List Response} (h : Serves sha256 parse turns ⟨.reading, written⟩) :
    Serves sha256 parse turns ⟨.closed, written⟩ := by
  cases h with
  | reading hkept =>
      exact .closed (fun turn hturn => hkept turn (List.dropLast_subset _ hturn)) (.inl rfl)

/-- A session that has written its response reads on, or is closed if it is not to be kept. -/
theorem onWrite {response : Response} {written : List Response}
    (h : Serves sha256 parse turns ⟨.writing response, written⟩) :
    Serves sha256 parse turns
      ⟨if response.keepAlive then .reading else .closed, written ++ [response]⟩ := by
  cases h with
  | @writing before turn hturns hkept =>
      have hall : before.map (·.response sha256 parse) ++ [turn.response sha256 parse]
          = turns.map (·.response sha256 parse) := by
        rw [hturns, List.map_append, List.map_singleton]
      rw [turn.response_keepAlive, hall]
      cases hkeep : turn.request.keepAlive with
      | true =>
          refine .reading fun other hother => ?_
          rw [hturns, List.mem_append, List.mem_singleton] at hother
          rcases hother with hearlier | rfl
          · exact hkept other hearlier
          · exact hkeep
      | false =>
          refine .closed (fun other hother => ?_) (.inl rfl)
          rw [hturns, List.dropLast_concat] at hother
          exact hkept other hother

/-- A response that cannot be written is the last one, and is missing. -/
theorem writeError {response : Response} {written : List Response}
    (h : Serves sha256 parse turns ⟨.writing response, written⟩) :
    Serves sha256 parse turns ⟨.closed, written⟩ := by
  cases h with
  | writing hturns hkept =>
      refine .closed (fun other hother => ?_) (.inr ?_)
      · rw [hturns, List.dropLast_concat] at hother
        exact hkept other hother
      · rw [hturns, List.dropLast_concat]

end Serves

namespace Serving

theorem handled_of_not_read {e : SessionEvent} (h : ∀ turn, e ≠ .onRead turn) :
    handled [e] = [] := by
  cases e with
  | onRead turn => exact absurd rfl (h turn)
  | _ => rfl

theorem init : Serving sha256 parse [] {} where
  serves _ _ h := by simp at h
  fresh _ _ := ⟨rfl, rfl⟩
  log := rfl

/-- A session that was given away has a number below the next one. -/
theorem lt_accepted (h : Serving sha256 parse turns server) {i : Nat} {session : HttpSession}
    (hsession : server.sessions i = some session) : i < server.accepted := by
  by_contra hge
  rw [(h.fresh i (Nat.le_of_not_lt hge)).1] at hsession
  simp at hsession

/-- One session changes, and nothing is handled. -/
theorem set (h : Serving sha256 parse turns server) {i : Nat} {session next : HttpSession}
    (hsession : server.sessions i = some session)
    (hserves : Serves sha256 parse (turnsOf i turns) next) :
    Serving sha256 parse turns (server.set i next) := by
  refine ⟨fun j other hother => ?_, fun j hj => ?_, h.log⟩
  · by_cases hji : j = i
    · subst hji
      obtain rfl := Option.some.inj ((server.set_self j next).symm.trans hother)
      exact hserves
    · exact h.serves j other ((server.set_of_ne hji next).symm.trans hother)
  · have hne : j ≠ i := fun hji => Nat.not_lt.mpr (hji ▸ hj : server.accepted ≤ i)
      (h.lt_accepted hsession)
    exact ⟨(server.set_of_ne hne _).trans (h.fresh j hj).1, (h.fresh j hj).2⟩

/-- A request is handled on one session; the others have the requests they had. -/
theorem onRead (h : Serving sha256 parse turns server) {turn : Turn} {written : List Response}
    (hsession : server.sessions turn.session = some ⟨.reading, written⟩) :
    Serving sha256 parse (turns ++ [turn])
      { server.set turn.session ⟨.writing (turn.response sha256 parse), written⟩ with
        log := server.log ++ turn.rows sha256 parse } := by
  refine ⟨fun j other hother => ?_, fun j hj => ?_, ?_⟩
  · rw [turnsOf_append]
    by_cases hj : j = turn.session
    · subst hj
      obtain rfl := Option.some.inj ((server.set_self turn.session _).symm.trans hother)
      rw [if_pos rfl]
      cases h.serves _ _ hsession with
      | reading hkept => exact .writing rfl hkept
    · rw [if_neg (Ne.symm hj), List.append_nil]
      exact h.serves j other ((server.set_of_ne hj _).symm.trans hother)
  · have hne : j ≠ turn.session := fun hji =>
      Nat.not_lt.mpr (hji ▸ hj : server.accepted ≤ turn.session) (h.lt_accepted hsession)
    rw [turnsOf_append, if_neg (Ne.symm hne), List.append_nil]
    exact ⟨(server.set_of_ne hne _).trans (h.fresh j hj).1, (h.fresh j hj).2⟩
  · rw [List.flatMap_append, ← h.log, List.flatMap_singleton]

theorem accept (h : Serving sha256 parse turns server) : Serving sha256 parse turns
    { server.set server.accepted {} with accepted := server.accepted + 1 } := by
  refine ⟨fun j other hother => ?_, fun j hj => ?_, h.log⟩
  · by_cases hj : j = server.accepted
    · subst hj
      obtain rfl := Option.some.inj ((server.set_self server.accepted _).symm.trans hother)
      rw [(h.fresh _ (Nat.le_refl _)).2]
      exact .reading (by simp)
    · exact h.serves j other ((server.set_of_ne hj _).symm.trans hother)
  · have hlt : server.accepted < j := hj
    obtain ⟨hnone, hturns⟩ := h.fresh j (Nat.le_of_lt hlt)
    exact ⟨(server.set_of_ne (Nat.ne_of_gt hlt) _).trans hnone, hturns⟩

theorem step (h : Serving sha256 parse turns server) {e : SessionEvent}
    (hstep : server.step sha256 parse e = some server') :
    Serving sha256 parse (turns ++ handled [e]) server' := by
  cases e with
  | accept =>
      rw [handled_of_not_read (by simp), List.append_nil]
      exact Option.some.inj hstep ▸ h.accept
  | onRead turn =>
      simp only [HttpServer.step] at hstep
      split at hstep
      · rename_i written hsession
        exact Option.some.inj hstep ▸ h.onRead hsession
      · simp at hstep
  | readError i =>
      rw [handled_of_not_read (by simp), List.append_nil]
      simp only [HttpServer.step] at hstep
      split at hstep
      · rename_i written hsession
        exact Option.some.inj hstep ▸ h.set hsession (h.serves _ _ hsession).readError
      · simp at hstep
  | onWrite i =>
      rw [handled_of_not_read (by simp), List.append_nil]
      simp only [HttpServer.step] at hstep
      split at hstep
      · rename_i response written hsession
        exact Option.some.inj hstep ▸ h.set hsession (h.serves _ _ hsession).onWrite
      · simp at hstep
  | writeError i =>
      rw [handled_of_not_read (by simp), List.append_nil]
      simp only [HttpServer.step] at hstep
      split at hstep
      · rename_i response written hsession
        exact Option.some.inj hstep ▸ h.set hsession (h.serves _ _ hsession).writeError
      · simp at hstep

end Serving

/-- Every session of a run serves, and the table is up to date. -/
theorem Serving.run (h : Serving sha256 parse turns server) {es : List SessionEvent}
    (hrun : Run.run (HttpServer.step sha256 parse) server es = some server') :
    Serving sha256 parse (turns ++ handled es) server' := by
  induction es generalizing turns server with
  | nil =>
      obtain rfl := Option.some.inj hrun
      rw [handled, List.filterMap_nil, List.append_nil]
      exact h
  | cons e es ih =>
      obtain ⟨next, hstep, hrest⟩ := Run.run_cons_some hrun
      have hcons : handled (e :: es) = handled [e] ++ handled es :=
        List.filterMap_append (l := [e])
      rw [hcons, ← List.append_assoc]
      exact ih (h.step hstep) hrest

/-- **Every session answers its own requests**, whatever the others do, and the table has what the
requests insert in the order in which they were handled. -/
theorem sessions_answer {es : List SessionEvent}
    (hrun : Run.run (HttpServer.step sha256 parse) {} es = some server) :
    (∀ i session, server.sessions i = some session →
      Serves sha256 parse (turnsOf i (handled es)) session) ∧
    server.log = (handled es).flatMap (·.rows sha256 parse) := by
  have h : Serving sha256 parse (handled es) server := Serving.init.run hrun
  exact ⟨h.serves, h.log⟩

/-- The demo user with an empty profile. -/
def sampleDatabase : Database := { demoDatabase with profile := fun _ => .ok none }

/-- Two sessions; the second is served while the first waits to write, and is not kept. -/
def sampleSessions : List SessionEvent :=
  [.accept, .onRead ⟨0, demoRequest, sampleDatabase, none⟩, .accept,
    .onRead ⟨1, { method := .get, target := "/health", keepAlive := false }, sampleDatabase, none⟩,
    .onWrite 1, .onWrite 0, .onRead ⟨0, demoRequest, demoDatabase, none⟩, .writeError 0]

theorem sessions_answer_sampleSessions : ∃ server,
    Run.run (HttpServer.step demoSha256 demoParse) {} sampleSessions = some server ∧
    (server.sessions 0).isSome = true ∧ (server.sessions 1).isSome = true ∧
      (∀ i session, server.sessions i = some session →
        Serves demoSha256 demoParse (turnsOf i (handled sampleSessions)) session) ∧
      server.log = (handled sampleSessions).flatMap (·.rows demoSha256 demoParse) := by
  have hrun : (Run.run (HttpServer.step demoSha256 demoParse) {} sampleSessions).map
      (fun server => ((server.sessions 0).isSome, (server.sessions 1).isSome))
      = some (true, true) := by
    decide +kernel
  rw [Option.map_eq_some_iff] at hrun
  obtain ⟨server, hrun, hthere⟩ := hrun
  obtain ⟨hfirst, hsecond⟩ := Prod.mk.inj hthere
  exact ⟨server, hrun, hfirst, hsecond, sessions_answer hrun⟩

/-! ### Who was let in -/

/-- The number of the user whose data a response has. -/
def Response.userId (response : Response) : Option Int :=
  match (response.body.bind (·.member "data")).bind (·.member "id") with
  | some (.num n) => some n
  | _ => none

/-- The response has the data of this user. -/
def Turn.lets (sha256 : String → Bytes) (parse : String → Option Json) (u : UInt64)
    (turn : Turn) : Bool :=
  (turn.response sha256 parse).userId = some (u.toNat : Int)

/-- The row says that this user was let in. -/
def LogRow.success (u : UInt64) (row : LogRow) : Bool := row.userId = u ∧ row.status = 1

def LogCall.tells (u : UInt64) (call : LogCall) : Bool := call.userId = u ∧ call.success = true

theorem userId_result (status : Status) (result : LoginResult) (version : Nat)
    (keepAlive : Bool) :
    (makeJsonResponse status (some (toLoginResponseJson result)) version keepAlive).userId
      = if result.success then some (result.user.id.toNat : Int) else none := by
  simp only [Response.userId, makeJsonResponse, toLoginResponseJson, Option.bind_some]
  cases result.success with
  | true => simp [Json.member, List.lookup_cons]
  | false => simp [Json.member, List.lookup_cons]

/-- Data go out only with a login. -/
theorem Turn.userId_response (turn : Turn) :
    (turn.response sha256 parse).userId
      = (turn.attempt sha256 parse).bind fun a =>
          if a.result.success then some (a.result.user.id.toNat : Int) else none := by
  unfold Turn.response Turn.attempt handleRequest
  by_cases hoptions : turn.request.method = .options
  · rw [if_pos hoptions, if_neg (by simp [hoptions])]
    rfl
  rw [if_neg hoptions]
  by_cases hprobe : turn.request.method = .get ∧
      (turn.request.target = "/health" ∨ turn.request.target = "/api/health")
  · rw [if_pos hprobe, if_neg (by simp [hprobe.1])]
    simp [Response.userId, makeJsonResponse, Json.member, List.lookup_cons]
  rw [if_neg hprobe]
  by_cases hlogin : turn.request.method = .post ∧ turn.request.target = "/api/login"
  · rw [if_pos hlogin, if_pos hlogin]
    cases parseLoginRequest parse turn.request.body with
    | none => exact userId_result ..
    | some named => exact userId_result ..
  · rw [if_neg hlogin, if_neg hlogin]
    exact userId_result ..

theorem loadUserInfo_id {db : Database} {userId : UInt64} {name : String} {user : UserInfo}
    (h : loadUserInfo db userId name = .ok user) : user.id = userId := by
  unfold loadUserInfo at h
  split at h
  · simp at h
  · rw [← Except.ok.inj h]
  · rw [← Except.ok.inj h]

/-- A login is recorded as a success exactly if its result has the data of a user with a number. -/
theorem login_tells (sha256 : String → Bytes) (db : Database) (username password clientIp
    deviceInfo : String) {u : UInt64} (hu : u ≠ 0) :
    (login sha256 db username password clientIp deviceInfo).calls.countP (·.tells u)
      = if (login sha256 db username password clientIp deviceInfo).result.success = true ∧
          (login sha256 db username password clientIp deviceInfo).result.user.id = u then 1
        else 0 := by
  unfold login
  by_cases hempty : username = "" ∨ password = ""
  · rw [if_pos hempty]
    simp [Attempt.fill]
  rw [if_neg hempty]
  cases findCredentialByUsername db username with
  | error what => simp [Attempt.caught, Attempt.fill]
  | ok found =>
      cases found with
      | none => simp [Attempt.fill]
      | some credential =>
          simp only []
          by_cases hstatus : credential.status ≠ 1
          · rw [if_pos hstatus]
            simp [Attempt.fill, LogCall.tells]
          rw [if_neg hstatus]
          by_cases hverify : ¬ verifyPassword sha256 password credential.passwordHash = true
          · rw [if_pos hverify]
            simp [Attempt.fill, LogCall.tells]
          rw [if_neg hverify]
          cases hload : loadUserInfo db credential.userId credential.username with
          | error what => simp [Attempt.caught, Attempt.fill, Ne.symm hu]
          | ok user =>
              have hid : user.id = credential.userId := loadUserInfo_id hload
              simp [Attempt.fill, LogCall.tells, hid, List.countP_singleton]

/-- A call that says so inserts a row that says so, unless the insertion throws. -/
theorem countP_row (db : Database) {u : UInt64} (hu : u ≠ 0) (call : LogCall) :
    (call.row db).toList.countP (·.success u) ≤ (if call.tells u then 1 else 0) ∧
      ((∀ row, db.insertLog row = .ok ()) →
        (call.row db).toList.countP (·.success u) = if call.tells u then 1 else 0) := by
  unfold LogCall.row insertLoginLog
  by_cases hzero : call.userId = 0
  · have hnot : call.tells u = false := by simp [LogCall.tells, hzero, Ne.symm hu]
    simp [hzero, hnot]
  · simp only [if_neg hzero]
    cases hinsert : db.insertLog _ with
    | error what =>
        refine ⟨Nat.zero_le _, fun hinserts => ?_⟩
        rw [hinserts] at hinsert
        simp at hinsert
    | ok inserted =>
        have hsame : ∀ ip, LogRow.success u ⟨call.userId, ip, call.deviceInfo,
            if call.success = true then 1 else 0⟩ = call.tells u := by
          intro ip
          cases hsuccess : call.success <;> simp [LogRow.success, LogCall.tells, hsuccess]
        simp [List.countP_singleton, hsame]

/-- The same for all calls of a login. -/
theorem countP_rows (db : Database) {u : UInt64} (hu : u ≠ 0) (calls : List LogCall) :
    (calls.filterMap (LogCall.row db)).countP (·.success u) ≤ calls.countP (·.tells u) ∧
      ((∀ row, db.insertLog row = .ok ()) →
        (calls.filterMap (LogCall.row db)).countP (·.success u) = calls.countP (·.tells u)) := by
  induction calls with
  | nil => exact ⟨Nat.le_refl _, fun _ => rfl⟩
  | cons call calls ih =>
      obtain ⟨hle, heq⟩ := countP_row db hu call
      have hcons : (call :: calls).filterMap (LogCall.row db)
          = (call.row db).toList ++ calls.filterMap (LogCall.row db) := by
        rw [List.filterMap_cons]
        cases call.row db <;> rfl
      rw [hcons, List.countP_append, List.countP_cons]
      refine ⟨by omega, fun hinserts => ?_⟩
      rw [heq hinserts, ih.2 hinserts, Nat.add_comm]

theorem Turn.attempt_eq_some {turn : Turn} {a : Attempt}
    (h : turn.attempt sha256 parse = some a) : ∃ username password clientIp deviceInfo,
      a = login sha256 turn.db username password clientIp deviceInfo := by
  unfold Turn.attempt at h
  split_ifs at h
  obtain ⟨named, -, rfl⟩ := Option.map_eq_some_iff.mp h
  exact ⟨_, _, _, _, rfl⟩

/-- A request says once that the user was let in if the user's data go out, and else never. -/
theorem Turn.countP_calls {u : UInt64} (hu : u ≠ 0) (turn : Turn) :
    ((turn.attempt sha256 parse).elim [] (·.calls)).countP (·.tells u)
      = if turn.lets sha256 parse u then 1 else 0 := by
  unfold Turn.lets
  rw [turn.userId_response]
  cases hattempt : turn.attempt sha256 parse with
  | none => simp
  | some a =>
      obtain ⟨username, password, clientIp, deviceInfo, rfl⟩ := Turn.attempt_eq_some hattempt
      rw [Option.elim_some, login_tells _ _ _ _ _ _ hu, Option.bind_some]
      generalize (login sha256 turn.db username password clientIp deviceInfo).result = result
      cases result.success with
      | false => simp
      | true =>
          have hsame : (result.user.id.toNat : Int) = u.toNat ↔ result.user.id = u := by
            rw [Int.natCast_inj, UInt64.toNat_inj]
          simp only [true_and, if_true, Option.some.injEq, decide_eq_true_eq, hsame]

variable (sha256 parse) in
/-- It inserts a row for this, unless the insertion throws. -/
theorem Turn.countP_rows {u : UInt64} (hu : u ≠ 0) (turn : Turn) :
    (turn.rows sha256 parse).countP (·.success u)
        ≤ (if turn.lets sha256 parse u then 1 else 0) ∧
      ((∀ row, turn.db.insertLog row = .ok ()) →
        (turn.rows sha256 parse).countP (·.success u)
          = if turn.lets sha256 parse u then 1 else 0) := by
  rw [← turn.countP_calls hu]
  exact Auth.countP_rows turn.db hu _

/-- **The table knows who was let in**: it has a success of a user at most once for each response
with the user's data, and once for each if no insertion throws. -/
theorem trail {es : List SessionEvent}
    (hrun : Run.run (HttpServer.step sha256 parse) {} es = some server) {u : UInt64}
    (hu : u ≠ 0) :
    server.log.countP (·.success u) ≤ (handled es).countP (·.lets sha256 parse u) ∧
      ((∀ turn ∈ handled es, ∀ row, turn.db.insertLog row = .ok ()) →
        server.log.countP (·.success u) = (handled es).countP (·.lets sha256 parse u)) := by
  have h : Serving sha256 parse (handled es) server := Serving.init.run hrun
  rw [h.log]
  generalize handled es = turns
  induction turns with
  | nil => exact ⟨Nat.le_refl _, fun _ => rfl⟩
  | cons turn turns ih =>
      obtain ⟨hle, heq⟩ := turn.countP_rows sha256 parse hu
      rw [List.flatMap_cons, List.countP_append, List.countP_cons]
      refine ⟨by omega, fun hinserts => ?_⟩
      rw [List.forall_mem_cons] at hinserts
      rw [heq hinserts.1, ih.2 hinserts.2, Nat.add_comm]

/-- The demo user is let in once; the second time there is no table of profiles. -/
theorem trail_sampleSessions : ∃ server,
    Run.run (HttpServer.step demoSha256 demoParse) {} sampleSessions = some server ∧
    (handled sampleSessions).countP (·.lets demoSha256 demoParse 1) = 1 ∧
      server.log.countP (·.success 1) = 1 := by
  obtain ⟨server, hrun⟩ : ∃ server,
      Run.run (HttpServer.step demoSha256 demoParse) {} sampleSessions = some server :=
    Option.isSome_iff_exists.mp (by decide +kernel)
  have hcount : (handled sampleSessions).countP (·.lets demoSha256 demoParse 1) = 1 := by
    decide +kernel
  refine ⟨server, hrun, hcount, ((trail hrun (by decide)).2 ?_).trans hcount⟩
  intro turn hturn row
  simp only [handled, sampleSessions, List.filterMap_cons, List.filterMap_nil, List.mem_cons,
    List.not_mem_nil, or_false] at hturn
  rcases hturn with rfl | rfl | rfl
  · rfl
  · rfl
  · rfl

end CloudMeeting.Auth
