/-
Logging in, from the dialog to the server and back.

The dialog posts what was typed to the login server and shows the main window once an
answer lets the user in.  Here the two are put together: the user clicks, the server
handles a request with the database as it is at that moment, an answer arrives, or the
network fails on the way, or the dialog is closed.

Each visit of a request to the server is kept beside the answer it is given, which the
dialog does not see.  `login_dialog` says what the dialog ends up with in terms of the
visits that were answered.
-/
import Mathlib.Algebra.Ring.Int.Defs
import CloudMeeting.Auth.Http
import CloudMeeting.Lib.Run

namespace CloudMeeting.Auth

/-! ### What Qt reads -/

/-- `QChar::isSpace`. -/
def isSpace (c : Char) : Bool :=
  let u := c.toNat
  u = 0x20 || (0x09 ≤ u && u ≤ 0x0d) || u = 0x85 || u = 0xa0 || u = 0x1680
    || (0x2000 ≤ u && u ≤ 0x200a) || u = 0x2028 || u = 0x2029 || u = 0x202f || u = 0x205f
    || u = 0x3000

def trimmed (text : String) : String :=
  String.ofList (((text.toList.dropWhile isSpace).reverse.dropWhile isSpace).reverse)

namespace QJsonValue

def toInt (value : Option Json) (default : Int) : Int :=
  match value with
  | some (.num n) => if -2 ^ 31 ≤ n ∧ n < 2 ^ 31 then n else default
  | _ => default

def toString (value : Option Json) : String :=
  match value with
  | some (.str text) => text
  | _ => ""

def toObject (value : Option Json) : List (String × Json) :=
  match value with
  | some (.obj members) => members
  | _ => []

/-- `toVariant().toLongLong()`; `far` is what becomes of anything but a number in range. -/
def toLongLong (far : Option Json → Int) (value : Option Json) : Int :=
  match value with
  | some (.num n) => if -2 ^ 63 ≤ n ∧ n < 2 ^ 63 then n else far value
  | _ => far value

end QJsonValue

/-! ### The dialog -/

structure UserSession where
  loggedIn : Bool := false
  userId : Int := 0
  name : String := ""
  avatar : String := ""
  info : String := ""
deriving DecidableEq, Repr

def UserSession.setUser (_ : UserSession) (userId : Int) (name avatar info : String) :
    UserSession :=
  ⟨true, userId, name, avatar, info⟩

/-- What `exec` returns. -/
inductive DialogCode where
  | accepted
  | rejected
deriving DecidableEq, Repr

/-- The dialog, the user's session, and the texts of the message boxes so far. -/
structure Dialog where
  requestInFlight : Bool := false
  loginButton : Bool := true
  exec : Option DialogCode := none
  session : UserSession := {}
  warnings : List String := []
deriving DecidableEq, Repr

/-- What comes back for a request.  The status is 0 where there is none, and there is no payload
where `QJsonDocument` cannot read it. -/
structure Reply where
  error : Bool
  httpStatus : Nat
  payload : Option Json

namespace Dialog

def warning (d : Dialog) (text : String) : Dialog := { d with warnings := d.warnings ++ [text] }

/-- The body of a request; `QJsonObject` keeps its keys in order. -/
def credentials (username password : String) : Json :=
  .obj [("password", .str password), ("username", .str username)]

def post (print : Json → String) (username password : String) : Request where
  method := .post
  target := "/api/login"
  body := print (credentials username password)
  userAgent := some "CloudMeetingClient/1.0"

/-- The slot of the button, with the text of the two lines; what it posts, if anything. -/
def login (print : Json → String) (d : Dialog) (account password : String) :
    Dialog × Option Request :=
  if d.requestInFlight then (d, none)
  else
    let username := trimmed account
    if username = "" ∨ password = "" then (d.warning "请输入账号和密码", none)
    else ({ d with requestInFlight := true, loginButton := false },
      some (post print username password))

def onLoginFinished (far : Option Json → Int) (d : Dialog) (reply : Reply) : Dialog :=
  let d := { d with requestInFlight := false, loginButton := true }
  if reply.error ∧ reply.httpStatus = 0 then
    d.warning "无法连接登录服务器，请确认认证服务已启动"
  else
    match reply.payload with
    | some (.obj root) =>
        let code := QJsonValue.toInt (root.lookup "code") (-1)
        let message := QJsonValue.toString (root.lookup "message")
        if code ≠ 0 ∨ (root.lookup "data").isNone then
          d.warning (if message = "" then "账号或密码错误" else message)
        else
          let data := QJsonValue.toObject (root.lookup "data")
          { d with
            session := d.session.setUser (QJsonValue.toLongLong far (data.lookup "id"))
              (QJsonValue.toString (data.lookup "name"))
              (QJsonValue.toString (data.lookup "avatar"))
              (QJsonValue.toString (data.lookup "info"))
            exec := some .accepted }
    | _ => d.warning "登录响应格式错误"

/-- `main` shows the main window once the dialog returns with an acceptance. -/
def mainWindow (d : Dialog) : Bool := d.exec = some .accepted

end Dialog

/-! ### The dialog and the server -/

def Status.code : Status → Nat
  | .ok => 200
  | .noContent => 204
  | .badRequest => 400
  | .unauthorized => 401
  | .forbidden => 403
  | .notFound => 404
  | .internalServerError => 500

/-- A response as it arrives: `QNetworkReply` counts the statuses from 400 on as errors. -/
def Response.reply (response : Response) : Reply :=
  ⟨400 ≤ response.status.code, response.status.code, response.body⟩

/-- A request for these credentials that the server handled with this database. -/
structure Visit where
  username : String
  password : String
  db : Database
  remote : Option String

/-- An exchange on its way: a request, or the reply to it. -/
inductive Exchange where
  | request (request : Request)
  | reply (visit : Visit) (reply : Reply)

/-- The dialog, the exchanges on their way, and the visits whose replies have arrived. -/
structure Scene where
  dialog : Dialog := {}
  wire : List Exchange := []
  answered : List Visit := []

inductive Event where
  | click (account password : String)
  /-- The server handles a request. -/
  | serve (db : Database) (remote : Option String)
  /-- A reply arrives. -/
  | finish
  /-- There is no connection, or it is lost before a status has arrived. -/
  | fail
  /-- The connection is lost with half of a reply's body, which is no JSON. -/
  | cut (httpStatus : Nat)
  | close

section System

variable (sha256 : String → Bytes) (parse : String → Option Json) (print : Json → String)
  (far : Option Json → Int)

/-- One event, unless it cannot happen: nothing happens to a dialog that is closed. -/
def step (s : Scene) (e : Event) : Option Scene :=
  if s.dialog.exec ≠ none then none
  else
    match e, s.wire with
    | .click account password, wire =>
        let turn := s.dialog.login print account password
        some { s with dialog := turn.1, wire := wire ++ turn.2.toList.map .request }
    | .serve db remote, .request request :: wire =>
        let named := (parseLoginRequest parse request.body).getD ("", "")
        let response := handleRequest sha256 parse db remote request
        some { s with wire := .reply ⟨named.1, named.2, db, remote⟩ response.reply :: wire }
    | .finish, .reply visit reply :: wire =>
        some { s with
          dialog := s.dialog.onLoginFinished far reply
          wire := wire
          answered := s.answered ++ [visit] }
    | .fail, _ :: wire =>
        some { s with dialog := s.dialog.onLoginFinished far ⟨true, 0, none⟩, wire := wire }
    | .cut httpStatus, .reply _ _ :: wire =>
        if httpStatus = 0 then none
        else
          some { s with
            dialog := s.dialog.onLoginFinished far ⟨true, httpStatus, none⟩, wire := wire }
    | .close, _ => some { s with dialog := { s.dialog with exec := some .rejected } }
    | _, _ => none

end System

/-! ### What a visit comes to -/

section Visits

variable {sha256 : String → Bytes} {parse : String → Option Json} {print : Json → String}
  {far : Option Json → Int}

/-- The result of the service. -/
def Visit.result (sha256 : String → Bytes) (v : Visit) : LoginResult :=
  (Auth.login sha256 v.db v.username v.password (v.remote.getD "unknown")
    "CloudMeetingClient/1.0").result

/-- The server lets this user in. -/
def Visit.Grants (sha256 : String → Bytes) (v : Visit) (user : UserInfo) : Prop :=
  ∃ credential, Admits sha256 v.db v.username v.password credential ∧
    loadUserInfo v.db credential.userId credential.username = .ok user

/-- What the server sends. -/
def Visit.reply (sha256 : String → Bytes) (v : Visit) : Reply :=
  (makeJsonResponse (statusOf (v.result sha256)) (some (toLoginResponseJson (v.result sha256)))
    11 true).reply

/-- The session of this user.  A number from 2⁶³ on is not kept. -/
def UserSession.of (far : Option Json → Int) (user : UserInfo) : UserSession where
  loggedIn := true
  userId := if user.id.toNat < 2 ^ 63 then user.id.toNat else far (some (.num user.id.toNat))
  name := user.name
  avatar := user.avatar
  info := user.info

/-- The texts of the refusals that reach a user who has typed a name and a password. -/
def refusals : List String :=
  ["invalid username or password", "account disabled or locked", "internal server error"]

theorem Visit.Grants.unique {v : Visit} {user other : UserInfo} (h : v.Grants sha256 user)
    (hother : v.Grants sha256 other) : user = other := by
  obtain ⟨credential, hadmits, hload⟩ := h
  obtain ⟨credential', hadmits', hload'⟩ := hother
  obtain rfl := hadmits'.eq_of_found hadmits.found
  rw [hload, Except.ok.injEq] at hload'
  exact hload'

/-- Who is let in gets the user's data. -/
theorem Visit.Grants.result {v : Visit} {user : UserInfo} (h : v.Grants sha256 user) :
    v.result sha256 = ⟨true, 0, "ok", user⟩ := by
  obtain ⟨credential, hadmits, hload⟩ := h
  have hempty : ¬ (v.username = "" ∨ v.password = "") := by
    rw [not_or]
    exact ⟨hadmits.named, hadmits.given⟩
  have hstatus : ¬ credential.status ≠ 1 := not_not.mpr hadmits.normal
  have hverify : ¬ ¬ verifyPassword sha256 v.password credential.passwordHash = true :=
    not_not.mpr hadmits.verified
  unfold Visit.result login
  rw [if_neg hempty, hadmits.found]
  simp only [if_neg hstatus, if_neg hverify, hload, log_result]
  rfl

/-- Who is not let in is told so, with one of three texts. -/
theorem Visit.result_of_not_grants {v : Visit} (hname : v.username ≠ "")
    (hpassword : v.password ≠ "") (h : ∀ user, ¬ v.Grants sha256 user) :
    ((v.result sha256).code = 401 ∨ (v.result sha256).code = 403 ∨ (v.result sha256).code = 500) ∧
      (v.result sha256).message ∈ refusals := by
  have hempty : ¬ (v.username = "" ∨ v.password = "") := not_or.mpr ⟨hname, hpassword⟩
  unfold Visit.result login
  rw [if_neg hempty]
  cases hfind : findCredentialByUsername v.db v.username with
  | error what => simp [Attempt.caught, Attempt.fill, refusals]
  | ok found =>
      cases found with
      | none => simp [Attempt.fill, refusals]
      | some credential =>
          simp only []
          by_cases hstatus : credential.status ≠ 1
          · rw [if_pos hstatus, log_result]
            simp [Attempt.fill, refusals]
          rw [if_neg hstatus]
          by_cases hverify : ¬ verifyPassword sha256 v.password credential.passwordHash = true
          · rw [if_pos hverify, log_result]
            simp [Attempt.fill, refusals]
          rw [if_neg hverify]
          have hadmits : Admits sha256 v.db v.username v.password credential :=
            ⟨hname, hpassword, hfind, not_not.mp hstatus, not_not.mp hverify⟩
          cases hload : loadUserInfo v.db credential.userId credential.username with
          | error what => simp [Attempt.caught, Attempt.fill, refusals]
          | ok user => exact absurd ⟨credential, hadmits, hload⟩ (h user)

variable (sha256) in
/-- The server reads what the dialog has posted, and its answer is the service's. -/
theorem handleRequest_post {username password : String} (hname : username ≠ "")
    (hread : parse (print (Dialog.credentials username password))
      = some (Dialog.credentials username password)) (db : Database) (remote : Option String) :
    parseLoginRequest parse (Dialog.post print username password).body
        = some (username, password) ∧
      (handleRequest sha256 parse db remote (Dialog.post print username password)).reply
        = Visit.reply sha256 ⟨username, password, db, remote⟩ := by
  have hparse : parseLoginRequest parse (Dialog.post print username password).body
      = some (username, password) := by
    unfold parseLoginRequest
    simp only [Dialog.post, hread]
    simp [Dialog.credentials, List.lookup_cons, hname]
  refine ⟨hparse, ?_⟩
  unfold handleRequest
  rw [if_neg (by simp [Dialog.post]), if_neg (by simp [Dialog.post]),
    if_pos (by simp [Dialog.post]), hparse]
  rfl

theorem Status.code_ne_zero (status : Status) : status.code ≠ 0 := by
  cases status <;> simp [Status.code]

/-- A reply of the server is never taken for a failure of the network. -/
theorem Visit.reply_arrived (v : Visit) :
    ¬ ((v.reply sha256).error = true ∧ (v.reply sha256).httpStatus = 0) := by
  intro hlost
  exact Status.code_ne_zero _ hlost.2

theorem onLoginFinished_grants {v : Visit} {user : UserInfo} (h : v.Grants sha256 user)
    (d : Dialog) :
    d.onLoginFinished far (v.reply sha256) =
      { d with requestInFlight := false, loginButton := true, exec := some .accepted
               session := UserSession.of far user } := by
  have hid : QJsonValue.toLongLong far (some (.num user.id.toNat))
      = (UserSession.of far user).userId := by
    unfold QJsonValue.toLongLong UserSession.of
    simp only []
    by_cases hsmall : user.id.toNat < 2 ^ 63
    · rw [if_pos hsmall, if_pos (by omega)]
    · rw [if_neg hsmall, if_neg (by omega)]
  unfold Visit.reply
  rw [h.result]
  simp [Dialog.onLoginFinished, Response.reply, makeJsonResponse, statusOf, Status.code,
    toLoginResponseJson, List.lookup_cons, QJsonValue.toInt, QJsonValue.toObject,
    QJsonValue.toString, UserSession.setUser, hid]
  simp [UserSession.of]

theorem onLoginFinished_not_grants {v : Visit} (hname : v.username ≠ "")
    (hpassword : v.password ≠ "") (h : ∀ user, ¬ v.Grants sha256 user) (d : Dialog) :
    d.onLoginFinished far (v.reply sha256) =
      { d with requestInFlight := false, loginButton := true }.warning
        (v.result sha256).message := by
  obtain ⟨hcode, hmessage⟩ := Visit.result_of_not_grants hname hpassword h
  have hsaid : (v.result sha256).message ≠ "" := by
    intro hnone
    rw [hnone] at hmessage
    simp [refusals] at hmessage
  have hwarned : QJsonValue.toInt (some (.num (v.result sha256).code)) (-1) ≠ 0 := by
    unfold QJsonValue.toInt
    simp only []
    split <;> omega
  unfold Dialog.onLoginFinished
  rw [if_neg (Visit.reply_arrived v)]
  unfold Visit.reply Response.reply makeJsonResponse toLoginResponseJson
  cases (v.result sha256).success with
  | true => simp [List.lookup_cons, hwarned, QJsonValue.toString, hsaid]
  | false => simp [List.lookup_cons, hwarned, QJsonValue.toString, hsaid]

end Visits

/-! ### Every run -/

section Runs

variable {sha256 : String → Bytes} {parse : String → Option Json} {print : Json → String}
  {far : Option Json → Int}

/-- Whatever was typed is read by the server as it was printed. -/
def Readable (parse : String → Option Json) (print : Json → String) (username password : String) :
    Prop :=
  parse (print (Dialog.credentials username password))
    = some (Dialog.credentials username password)

/-- The user has clicked with this name, blanks around it apart, and this password. -/
def Typed (es : List Event) (username password : String) : Prop :=
  username ≠ "" ∧ password ≠ "" ∧
    ∃ account, .click account password ∈ es ∧ username = trimmed account

/-- What is on its way belongs to something that was typed. -/
inductive Exchange.Belongs (sha256 : String → Bytes) (print : Json → String) (es : List Event) :
    Exchange → Prop
  | request {username password : String} (h : Typed es username password) :
      Belongs sha256 print es (.request (Dialog.post print username password))
  | reply {v : Visit} (h : Typed es v.username v.password) :
      Belongs sha256 print es (.reply v (v.reply sha256))

/-- A text that the dialog has a reason to show: a click with an empty line, a failure, a reply cut
off, or a refusal. -/
inductive Said (sha256 : String → Bytes) (es : List Event) (answered : List Visit) : String → Prop
  | empty {account password : String} (hclick : .click account password ∈ es)
      (hempty : trimmed account = "" ∨ password = "") : Said sha256 es answered "请输入账号和密码"
  | lost (hfail : .fail ∈ es) :
      Said sha256 es answered "无法连接登录服务器，请确认认证服务已启动"
  | broken {httpStatus : Nat} (hcut : .cut httpStatus ∈ es) :
      Said sha256 es answered "登录响应格式错误"
  | refused (v : Visit) (h : v ∈ answered) (hnot : ∀ user, ¬ v.Grants sha256 user)
      (htext : (v.result sha256).message ∈ refusals) :
      Said sha256 es answered (v.result sha256).message

/-- What holds of the dialog and the server as long as the events are among `es`. -/
structure InStep (sha256 : String → Bytes) (print : Json → String) (far : Option Json → Int)
    (es : List Event) (s : Scene) : Prop where
  /-- One request at most is on its way. -/
  single : s.wire.length = if s.dialog.requestInFlight then 1 else 0
  button : s.dialog.loginButton = !s.dialog.requestInFlight
  belongs : ∀ x ∈ s.wire, x.Belongs sha256 print es
  typed : ∀ v ∈ s.answered, Typed es v.username v.password
  said : ∀ text ∈ s.dialog.warnings, Said sha256 es s.answered text
  outside : s.dialog.mainWindow = false →
    s.dialog.session = {} ∧ ∀ v ∈ s.answered, ∀ user, ¬ v.Grants sha256 user
  inside : s.dialog.mainWindow = true → ∃ earlier v user, s.answered = earlier ++ [v] ∧
    (∀ w ∈ earlier, ∀ user, ¬ w.Grants sha256 user) ∧ v.Grants sha256 user ∧
    s.dialog.session = UserSession.of far user

theorem Said.append {es : List Event} {answered : List Visit} {text : String}
    (h : Said sha256 es answered text) (more : List Visit) :
    Said sha256 es (answered ++ more) text := by
  cases h with
  | empty hclick hempty => exact .empty hclick hempty
  | lost hfail => exact .lost hfail
  | broken hcut => exact .broken hcut
  | refused v hv hnot htext => exact .refused v (List.mem_append_left _ hv) hnot htext

section Step

variable {es : List Event} {s s' : Scene}

theorem InStep.start : InStep sha256 print far es {} where
  single := rfl
  button := rfl
  belongs := by simp
  typed := by simp
  said := by simp
  outside := fun _ => ⟨rfl, by simp⟩
  inside := by simp [Dialog.mainWindow]

theorem mainWindow_of_open (hopen : s.dialog.exec = none) : s.dialog.mainWindow = false := by
  simp [Dialog.mainWindow, hopen]

/-- An exchange that is over was the only one. -/
theorem InStep.alone (hs : InStep sha256 print far es s) {x : Exchange} {wire : List Exchange}
    (hwire : s.wire = x :: wire) : wire = [] := by
  have hsingle := hs.single
  rw [hwire, List.length_cons] at hsingle
  split at hsingle
  · exact List.eq_nil_of_length_eq_zero (by omega)
  · omega

/-- An exchange that ends with a text in a message box. -/
theorem InStep.told (hs : InStep sha256 print far es s) (hopen : s.dialog.exec = none)
    {x : Exchange} {wire : List Exchange} (hwire : s.wire = x :: wire) (more : List Visit)
    (hmore : ∀ v ∈ more, Typed es v.username v.password ∧ ∀ user, ¬ v.Grants sha256 user)
    {text : String} (hsaid : Said sha256 es (s.answered ++ more) text) :
    InStep sha256 print far es
      { dialog := { s.dialog with requestInFlight := false, loginButton := true }.warning text
        wire := wire
        answered := s.answered ++ more } where
  single := by simp [hs.alone hwire, Dialog.warning]
  button := rfl
  belongs := by simp [hs.alone hwire]
  typed := by
    intro v hv
    rcases List.mem_append.mp hv with hv | hv
    · exact hs.typed v hv
    · exact (hmore v hv).1
  said := by
    intro other hother
    rcases List.mem_append.mp hother with hother | hother
    · exact (hs.said other hother).append more
    · rw [List.mem_singleton] at hother
      exact hother ▸ hsaid
  outside := by
    intro _
    obtain ⟨hsession, hnone⟩ := hs.outside (mainWindow_of_open hopen)
    refine ⟨hsession, fun v hv => ?_⟩
    rcases List.mem_append.mp hv with hv | hv
    · exact hnone v hv
    · exact (hmore v hv).2
  inside := by simp [Dialog.mainWindow, Dialog.warning, hopen]

theorem InStep.click (hs : InStep sha256 print far es s) (hopen : s.dialog.exec = none)
    {account password : String} (he : .click account password ∈ es) :
    InStep sha256 print far es
      { s with
        dialog := (s.dialog.login print account password).1
        wire := s.wire ++ (s.dialog.login print account password).2.toList.map .request } := by
  have hshut := mainWindow_of_open hopen
  unfold Dialog.login
  by_cases hflight : s.dialog.requestInFlight = true
  · rw [if_pos hflight]
    simpa using hs
  have hnone : s.wire = [] := List.eq_nil_of_length_eq_zero (by rw [hs.single, if_neg hflight])
  rw [if_neg hflight]
  by_cases hempty : trimmed account = "" ∨ password = ""
  · simp only [if_pos hempty]
    exact {
      single := by simp [hnone, Dialog.warning, hflight]
      button := hs.button
      belongs := by simp [hnone]
      typed := hs.typed
      said := by
        intro text htext
        rcases List.mem_append.mp htext with htext | htext
        · exact hs.said text htext
        · rw [List.mem_singleton] at htext
          rw [htext]
          exact .empty he hempty
      outside := fun _ => hs.outside hshut
      inside := by simp [Dialog.mainWindow, Dialog.warning, hopen] }
  · simp only [if_neg hempty]
    rw [not_or] at hempty
    exact {
      single := by simp [hnone]
      button := rfl
      belongs := by
        simp only [hnone, List.nil_append, Option.toList_some, List.map_cons, List.map_nil,
          List.mem_singleton, forall_eq]
        exact .request ⟨hempty.1, hempty.2, account, he, rfl⟩
      typed := hs.typed
      said := hs.said
      outside := fun _ => hs.outside hshut
      inside := by simp [Dialog.mainWindow, hopen] }

theorem InStep.serve (hs : InStep sha256 print far es s) (hopen : s.dialog.exec = none)
    {x : Exchange} {wire : List Exchange} (hwire : s.wire = x :: wire) {v : Visit}
    (hv : Typed es v.username v.password) :
    InStep sha256 print far es { s with wire := .reply v (v.reply sha256) :: wire } where
  single := by simpa [hwire] using hs.single
  button := hs.button
  belongs := by
    intro y hy
    rcases List.mem_cons.mp hy with rfl | hy
    · exact .reply hv
    · exact hs.belongs y (hwire ▸ List.mem_cons_of_mem x hy)
  typed := hs.typed
  said := hs.said
  outside := hs.outside
  inside := by simp [Dialog.mainWindow, hopen]

theorem InStep.finish (hs : InStep sha256 print far es s) (hopen : s.dialog.exec = none)
    {v : Visit} (hv : Typed es v.username v.password) {x : Exchange} {wire : List Exchange}
    (hwire : s.wire = x :: wire) :
    InStep sha256 print far es
      { dialog := s.dialog.onLoginFinished far (v.reply sha256)
        wire := wire
        answered := s.answered ++ [v] } := by
  by_cases hgrants : ∃ user, v.Grants sha256 user
  · obtain ⟨user, hgrants⟩ := hgrants
    rw [onLoginFinished_grants hgrants]
    exact {
      single := by simp [hs.alone hwire]
      button := rfl
      belongs := by simp [hs.alone hwire]
      typed := by
        intro w hw
        rcases List.mem_append.mp hw with hw | hw
        · exact hs.typed w hw
        · rw [List.mem_singleton] at hw
          exact hw ▸ hv
      said := fun text htext => (hs.said text htext).append [v]
      outside := by simp [Dialog.mainWindow]
      inside := fun _ =>
        ⟨s.answered, v, user, rfl, (hs.outside (mainWindow_of_open hopen)).2, hgrants, rfl⟩ }
  · rw [not_exists] at hgrants
    rw [onLoginFinished_not_grants hv.1 hv.2.1 hgrants]
    refine hs.told hopen hwire [v] (fun w hw => ?_) ?_
    · rw [List.mem_singleton] at hw
      exact hw ▸ ⟨hv, hgrants⟩
    · exact .refused v (by simp) hgrants (Visit.result_of_not_grants hv.1 hv.2.1 hgrants).2

/-- What one event preserves. -/
theorem InStep.step (hread : ∀ username password, Typed es username password →
      Readable parse print username password) {e : Event} (he : e ∈ es)
    (hs : InStep sha256 print far es s) (h : step sha256 parse print far s e = some s') :
    InStep sha256 print far es s' := by
  unfold Auth.step at h
  by_cases hshut : s.dialog.exec ≠ none
  · rw [if_pos hshut] at h
    simp at h
  rw [if_neg hshut] at h
  have hopen : s.dialog.exec = none := not_not.mp hshut
  cases e with
  | click account password =>
      simp only [Option.some.injEq] at h
      exact h ▸ hs.click hopen he
  | close =>
      simp only [Option.some.injEq] at h
      rw [← h]
      exact {
        single := hs.single
        button := hs.button
        belongs := hs.belongs
        typed := hs.typed
        said := hs.said
        outside := fun _ => hs.outside (mainWindow_of_open hopen)
        inside := by simp [Dialog.mainWindow] }
  | serve db remote =>
      cases hwire : s.wire with
      | nil => simp [hwire] at h
      | cons x wire =>
          have hx := hs.belongs x (hwire ▸ List.mem_cons_self)
          rw [hwire] at h
          cases hx with
          | reply hv => simp at h
          | @request username password hv =>
              obtain ⟨hparse, hreply⟩ := handleRequest_post sha256 hv.1
                (hread username password hv) db remote
              simp only [hparse, Option.getD_some, hreply, Option.some.injEq] at h
              exact h ▸ hs.serve hopen hwire hv
  | finish =>
      cases hwire : s.wire with
      | nil => simp [hwire] at h
      | cons x wire =>
          have hx := hs.belongs x (hwire ▸ List.mem_cons_self)
          rw [hwire] at h
          cases hx with
          | request hv => simp at h
          | reply hv =>
              simp only [Option.some.injEq] at h
              exact h ▸ hs.finish hopen hv hwire
  | fail =>
      cases hwire : s.wire with
      | nil => simp [hwire] at h
      | cons x wire =>
          rw [hwire] at h
          simp only [Option.some.injEq] at h
          rw [← h]
          simpa [Dialog.onLoginFinished] using hs.told hopen hwire [] (by simp) (.lost he)
  | cut httpStatus =>
      cases hwire : s.wire with
      | nil => simp [hwire] at h
      | cons x wire =>
          have hx := hs.belongs x (hwire ▸ List.mem_cons_self)
          rw [hwire] at h
          cases hx with
          | request hv => simp at h
          | reply hv =>
              simp only [Option.ite_none_left_eq_some, Option.some.injEq] at h
              obtain ⟨harrived, h⟩ := h
              rw [← h]
              simpa [Dialog.onLoginFinished, harrived] using
                hs.told hopen hwire [] (by simp) (.broken he)

/-- A click on what has been typed, an answer, and its arrival: the user is in if the server says
so, and can click again otherwise. -/
theorem InStep.attempt (hs : InStep sha256 print far es s) (hopen : s.dialog.exec = none)
    (hidle : s.dialog.requestInFlight = false) {account password : String}
    (hname : trimmed account ≠ "") (hpassword : password ≠ "")
    (hread : Readable parse print (trimmed account) password) (db : Database)
    (remote : Option String) :
    ∃ t, Run.run (Auth.step sha256 parse print far) s
        [.click account password, .serve db remote, .finish] = some t ∧
      (t.dialog.mainWindow = true ↔
        ∃ user, Visit.Grants sha256 ⟨trimmed account, password, db, remote⟩ user) ∧
      t.dialog.requestInFlight = false := by
  have hnone : s.wire = [] := List.eq_nil_of_length_eq_zero (by simp [hs.single, hidle])
  obtain ⟨hparse, hreply⟩ := handleRequest_post sha256 hname hread db remote
  have hempty : ¬ (trimmed account = "" ∨ password = "") := not_or.mpr ⟨hname, hpassword⟩
  let v : Visit := ⟨trimmed account, password, db, remote⟩
  let busy : Dialog := { s.dialog with requestInFlight := true, loginButton := false }
  let s₁ : Scene := { s with
    dialog := busy, wire := [.request (Dialog.post print (trimmed account) password)] }
  let s₂ : Scene := { s with dialog := busy, wire := [.reply v (v.reply sha256)] }
  have hclick : Auth.step sha256 parse print far s (.click account password) = some s₁ := by
    simp [Auth.step, hopen, Dialog.login, hidle, hempty, hnone, s₁, busy]
  have hserve : Auth.step sha256 parse print far s₁ (.serve db remote) = some s₂ := by
    simp [Auth.step, s₁, s₂, busy, hopen, hparse, hreply, v]
  let t : Scene := ⟨busy.onLoginFinished far (v.reply sha256), [], s.answered ++ [v]⟩
  have hfinish : Auth.step sha256 parse print far s₂ .finish = some t := by
    simp [Auth.step, s₂, t, busy, hopen]
  refine ⟨t, ?_, ?_⟩
  · rw [Run.run_cons, hclick, Option.bind_some, Run.run_cons, hserve, Option.bind_some,
      Run.run_cons, hfinish, Option.bind_some, Run.run_nil]
  by_cases hgrants : ∃ user, v.Grants sha256 user
  · obtain ⟨user, huser⟩ := hgrants
    have hdialog : t.dialog = _ := onLoginFinished_grants huser busy
    rw [hdialog]
    exact ⟨iff_of_true rfl ⟨user, huser⟩, rfl⟩
  · have hdialog : t.dialog = _ :=
      onLoginFinished_not_grants hname hpassword (not_exists.mp hgrants) busy
    rw [hdialog]
    refine ⟨iff_of_false ?_ hgrants, rfl⟩
    simp [Dialog.mainWindow, Dialog.warning, busy, hopen]

end Step

variable (sha256 parse print far) in
/-- **What the dialog ends up with**, whatever the user, the server's database and the network do:
the main window is there just if the last visit answered was granted, with that user's data, and no
visit before it was.  As long as it is open and idle, another attempt ends as the server says. -/
theorem login_dialog {es : List Event} {s : Scene}
    (hread : ∀ username password, Typed es username password →
      Readable parse print username password)
    (h : Run.run (step sha256 parse print far) {} es = some s) :
    InStep sha256 print far es s ∧
      ∀ account password db remote, s.dialog.exec = none → s.dialog.requestInFlight = false →
        trimmed account ≠ "" → password ≠ "" → Readable parse print (trimmed account) password →
        ∃ t, Run.run (step sha256 parse print far) s
            [.click account password, .serve db remote, .finish] = some t ∧
          (t.dialog.mainWindow = true ↔
            ∃ user, Visit.Grants sha256 ⟨trimmed account, password, db, remote⟩ user) ∧
          t.dialog.requestInFlight = false := by
  have hall : Run.Throughout (step sha256 parse print far) (InStep sha256 print far es) {} es :=
    Run.throughout_of_step (P := fun _ e => e ∈ es)
      (fun _ _ _ hs he hstep => hs.step hread he hstep) .start
      (Run.Steps.of_mem fun _ _ he => he)
  have hlast := hall.last h
  refine ⟨hlast, fun account password db remote hopen hidle hname hpassword hreadable => ?_⟩
  exact hlast.attempt hopen hidle hname hpassword hreadable db remote

/-! ### The demo user -/

def demoPrint (_ : Json) : String := "\x7b\"password\":\"demo123\",\"username\":\"demo\"\x7d"

def demoRead (body : String) : Option Json :=
  if body = demoPrint .other then some (Dialog.credentials "demo" "demo123") else none

/-- The table of profiles is there, without a row for the user. -/
def demoTables : Database :=
  { demoDatabase with profile := fun _ => .ok none }

/-- The server is not up at first; the table of profiles is not there the second time. -/
def demoEvents : List Event :=
  [.click " demo " "demo123", .click "demo" "demo123", .fail, .click "demo" "",
    .click "demo" "demo123", .serve demoDatabase none, .finish,
    .click "demo " "demo123", .serve demoTables none, .finish]

theorem demoEvents_typed {username password : String} (h : Typed demoEvents username password) :
    username = "demo" ∧ password = "demo123" := by
  obtain ⟨hname, hpassword, account, hclick, rfl⟩ := h
  simp only [demoEvents, List.mem_cons, Event.click.injEq, List.not_mem_nil, or_false,
    reduceCtorEq, false_or] at hclick
  rcases hclick with ⟨rfl, rfl⟩ | ⟨rfl, rfl⟩ | ⟨rfl, rfl⟩ | ⟨rfl, rfl⟩ | ⟨rfl, rfl⟩
  · exact ⟨by decide +kernel, rfl⟩
  · exact ⟨by decide +kernel, rfl⟩
  · exact absurd rfl hpassword
  · exact ⟨by decide +kernel, rfl⟩
  · exact ⟨by decide +kernel, rfl⟩

/-- The third attempt lets the demo user in, after two message boxes. -/
theorem login_dialog_demo : ∃ s,
    Run.run (step demoSha256 demoRead demoPrint fun _ => 0) {} demoEvents = some s ∧
      s.dialog.mainWindow = true ∧ s.dialog.session = ⟨true, 1, "demo", "", ""⟩ ∧
      InStep demoSha256 demoPrint (fun _ => 0) demoEvents s := by
  have hend : (Run.run (step demoSha256 demoRead demoPrint fun _ => 0) {} demoEvents).map
      (fun s => (s.dialog.mainWindow, s.dialog.session))
        = some (true, ⟨true, 1, "demo", "", ""⟩) := by
    decide +kernel
  rw [Option.map_eq_some_iff] at hend
  obtain ⟨s, hrun, hs⟩ := hend
  rw [Prod.mk.injEq] at hs
  refine ⟨s, hrun, hs.1, hs.2, ?_⟩
  refine (login_dialog demoSha256 demoRead demoPrint (fun _ => 0) ?_ hrun).1
  intro username password htyped
  obtain ⟨rfl, rfl⟩ := demoEvents_typed htyped
  rfl

end Runs

end CloudMeeting.Auth
