/-
The login server's answers.

`handle_request` knows three kinds of requests: preflights, health probes and logins.  A
login's answer is built from the result of the service, once for the status line and once
for the JSON in the body; `consistent_iff` says when the two agree with each other and
with the result.

Parsing and printing JSON is a library's work.  The parser is a parameter; a body is the
value that is printed.
-/
import CloudMeeting.Auth.Login

namespace CloudMeeting.Auth

/-! ### JSON -/

inductive Json where
  | str (s : String)
  | num (n : Int)
  | obj (members : List (String × Json))
  /-- A value of another kind, which nothing here looks into. -/
  | other

def Json.member (key : String) : Json → Option Json
  | .obj members => members.lookup key
  | _ => none

/-- The user name and password of a request body; `parse` gives nothing where it throws. -/
def parseLoginRequest (parse : String → Option Json) (body : String) : Option (String × String) :=
  match parse body with
  | some (.obj members) =>
      match members.lookup "username", members.lookup "password" with
      | some (.str username), some (.str password) =>
          if username ≠ "" then some (username, password) else none
      | _, _ => none
  | _ => none

def toLoginResponseJson (result : LoginResult) : Json :=
  let root := [("code", Json.num result.code), ("message", .str result.message)]
  .obj (if result.success then
    root ++ [("data", .obj [("id", .num result.user.id.toNat), ("name", .str result.user.name),
      ("avatar", .str result.user.avatar), ("info", .str result.user.info)])]
  else root)

/-! ### Requests and responses -/

inductive Verb where
  | get
  | post
  | options
  | other
deriving DecidableEq, Repr

structure Request where
  method : Verb
  target : String
  version : Nat := 11
  keepAlive : Bool := true
  body : String := ""
  userAgent : Option String := none

inductive Status where
  | ok
  | noContent
  | badRequest
  | unauthorized
  | forbidden
  | notFound
  | internalServerError
deriving DecidableEq, Repr

structure Response where
  status : Status
  version : Nat
  headers : List (String × String)
  keepAlive : Bool
  /-- The JSON that the body prints, if it is not empty. -/
  body : Option Json

def makeJsonResponse (status : Status) (body : Option Json) (version : Nat) (keepAlive : Bool) :
    Response :=
  { status := status
    version := version
    headers := [("Server", "CloudMeetingAuthServer"),
      ("Content-Type", "application/json; charset=utf-8"), ("Access-Control-Allow-Origin", "*"),
      ("Access-Control-Allow-Headers", "Content-Type"),
      ("Access-Control-Allow-Methods", "POST, OPTIONS")]
    keepAlive := keepAlive
    body := body }

/-- The status a login is answered with. -/
def statusOf (result : LoginResult) : Status :=
  if result.success then .ok
  else if result.code = 400 then .badRequest
  else if result.code = 403 then .forbidden
  else if result.code = 500 then .internalServerError
  else .unauthorized

/-- `HttpSession::handle_request`, for a socket whose peer is `remote`, if it can be asked. -/
def handleRequest (sha256 : String → Bytes) (parse : String → Option Json) (db : Database)
    (remote : Option String) (req : Request) : Response :=
  if req.method = .options then makeJsonResponse .noContent none req.version req.keepAlive
  else if req.method = .get ∧ (req.target = "/health" ∨ req.target = "/api/health") then
    makeJsonResponse .ok (some (.obj [("code", .num 0), ("message", .str "ok")])) req.version
      req.keepAlive
  else if req.method = .post ∧ req.target = "/api/login" then
    match parseLoginRequest parse req.body with
    | none =>
        let bad : LoginResult := { code := 400, message := "invalid json body" }
        makeJsonResponse .badRequest (some (toLoginResponseJson bad)) req.version req.keepAlive
    | some (username, password) =>
        let clientIp := remote.getD "unknown"
        let deviceInfo := req.userAgent.getD ""
        let result := (login sha256 db username password clientIp deviceInfo).result
        makeJsonResponse (statusOf result) (some (toLoginResponseJson result)) req.version
          req.keepAlive
  else
    let notFound : LoginResult := { code := 404, message := "not found" }
    makeJsonResponse .notFound (some (toLoginResponseJson notFound)) req.version req.keepAlive

/-! ### Status and body -/

def Request.IsProbe (req : Request) : Prop :=
  req.method = .get ∧ (req.target = "/health" ∨ req.target = "/api/health")

/-- The request is a login with this name and password. -/
def Request.Login (parse : String → Option Json) (req : Request) (username password : String) :
    Prop :=
  req.method = .post ∧ req.target = "/api/login" ∧
    parseLoginRequest parse req.body = some (username, password)

/-- If there is JSON in the body, its code is 0 where the status is 200, and where there is data. -/
def ResponseConsistent (response : Response) : Prop :=
  ∀ json, response.body = some json →
    (response.status = .ok ↔ ∃ code, json.member "code" = some (.num code) ∧ code = 0) ∧
    ((∃ data, json.member "data" = some (.obj data)) ↔
      ∃ code, json.member "code" = some (.num code) ∧ code = 0)

theorem member_code (result : LoginResult) :
    (toLoginResponseJson result).member "code" = some (.num result.code) := by
  unfold toLoginResponseJson
  cases result.success <;> rfl

theorem member_data (result : LoginResult) :
    (∃ data, (toLoginResponseJson result).member "data" = some (.obj data))
      ↔ result.success = true := by
  unfold toLoginResponseJson
  cases result.success with
  | false => simp [Json.member, List.lookup_cons]
  | true => simp [Json.member, List.lookup_cons]

theorem code_eq_zero_iff (result : LoginResult) :
    (∃ code, (toLoginResponseJson result).member "code" = some (.num code) ∧ code = 0)
      ↔ result.code = 0 := by
  rw [member_code]
  simp

/-- An answer built from a result is as consistent as the result. -/
theorem responseConsistent_iff {response : Response} {result : LoginResult}
    (hbody : response.body = some (toLoginResponseJson result)) :
    ResponseConsistent response ↔
      (response.status = .ok ↔ result.code = 0) ∧ (result.success = true ↔ result.code = 0) := by
  unfold ResponseConsistent
  simp only [hbody, Option.some.injEq, forall_eq', code_eq_zero_iff, member_data]

theorem statusOf_eq_ok (result : LoginResult) : statusOf result = .ok ↔ result.success = true := by
  unfold statusOf
  cases result.success with
  | true => simp
  | false =>
      simp only [Bool.false_eq_true, if_false, iff_false]
      split
      · simp
      split
      · simp
      split <;> simp

/-- The answer to a login is consistent unless the profile could not be loaded. -/
theorem Ends.responseConsistent_iff {sha256 : String → Bytes} {db : Database}
    {username password : String} {r : LoginResult} (h : Ends sha256 db username password r)
    {response : Response} (hstatus : response.status = statusOf r)
    (hbody : response.body = some (toLoginResponseJson r)) :
    ResponseConsistent response ↔ ¬ Unloaded sha256 db username password := by
  rw [Auth.responseConsistent_iff hbody, hstatus, statusOf_eq_ok, and_self]
  cases h with
  | granted credential hadmits hload hsuccess hcode =>
      have hgood := (Ends.granted credential hadmits hload hsuccess hcode).loginConsistent_iff
      rw [← hgood]
      exact iff_of_true (by simp [hsuccess, hcode])
        ⟨by simp [hsuccess, hcode], fun _ => ⟨credential, hadmits, hload⟩⟩
  | refused hnot hsuccess hcode =>
      have hne : r.code ≠ 0 := by omega
      exact iff_of_true (by simp [hsuccess, hne]) hnot
  | halfway hun hsuccess hcode =>
      exact iff_of_false (by simp [hsuccess, hcode]) (not_not.mpr hun)

/-- An answer with an error of its own is consistent. -/
theorem responseConsistent_error {status : Status} {code : Int} {message : String}
    (hstatus : status ≠ .ok) (hcode : code ≠ 0) (version : Nat) (keepAlive : Bool) :
    ResponseConsistent (makeJsonResponse status
      (some (toLoginResponseJson { code := code, message := message })) version keepAlive) := by
  rw [responseConsistent_iff rfl]
  exact ⟨iff_of_false hstatus hcode, iff_of_false (by simp) hcode⟩

/-- A probe is answered with the code of success, without any data. -/
theorem responseConsistent_probe (version : Nat) (keepAlive : Bool) :
    ¬ ResponseConsistent (makeJsonResponse .ok
      (some (.obj [("code", .num 0), ("message", .str "ok")])) version keepAlive) := by
  intro hgood
  obtain ⟨data, hdata⟩ := (hgood _ rfl).2.mpr ⟨0, rfl, rfl⟩
  simp [Json.member, List.lookup_cons] at hdata

/-- **When a login's result and its answer are consistent**, for every database and request. -/
theorem consistent_iff (sha256 : String → Bytes) (parse : String → Option Json) (db : Database)
    (username password clientIp deviceInfo : String) (remote : Option String) (req : Request) :
    (LoginConsistent sha256 db username password
        (login sha256 db username password clientIp deviceInfo).result ↔
      ¬ Unloaded sha256 db username password) ∧
    (ResponseConsistent (handleRequest sha256 parse db remote req) ↔
      ¬ req.IsProbe ∧ ¬ ∃ name word, req.Login parse name word ∧ Unloaded sha256 db name word) := by
  refine ⟨(login_ends sha256 db username password clientIp deviceInfo).loginConsistent_iff, ?_⟩
  unfold handleRequest
  by_cases hoptions : req.method = .options
  · rw [if_pos hoptions]
    refine iff_of_true (fun json hjson => by simp [makeJsonResponse] at hjson) ⟨?_, ?_⟩
    · intro hprobe
      have hget := hprobe.1
      rw [hoptions] at hget
      simp at hget
    · intro hlogin
      obtain ⟨name, word, hreq, -⟩ := hlogin
      have hpost := hreq.1
      rw [hoptions] at hpost
      simp at hpost
  rw [if_neg hoptions]
  by_cases hprobe : req.method = .get ∧ (req.target = "/health" ∨ req.target = "/api/health")
  · rw [if_pos hprobe]
    exact iff_of_false (responseConsistent_probe _ _) fun hnot => hnot.1 hprobe
  rw [if_neg hprobe]
  by_cases hlogin : req.method = .post ∧ req.target = "/api/login"
  · rw [if_pos hlogin]
    cases hparse : parseLoginRequest parse req.body with
    | none =>
        refine iff_of_true (responseConsistent_error (by simp) (by simp) _ _) ⟨hprobe, ?_⟩
        intro hnone
        obtain ⟨name, word, hreq, -⟩ := hnone
        have hsome := hreq.2.2
        rw [hparse] at hsome
        simp at hsome
    | some pair =>
        obtain ⟨name, word⟩ := pair
        have hends := login_ends sha256 db name word (remote.getD "unknown")
          (req.userAgent.getD "")
        rw [hends.responseConsistent_iff rfl rfl]
        have hexists : (∃ name' word', req.Login parse name' word' ∧
            Unloaded sha256 db name' word') ↔ Unloaded sha256 db name word := by
          constructor
          · intro hun
            obtain ⟨name', word', hreq, hun⟩ := hun
            have hsame := hreq.2.2
            rw [hparse, Option.some.injEq, Prod.mk.injEq] at hsame
            obtain ⟨rfl, rfl⟩ := hsame
            exact hun
          · exact fun hun => ⟨name, word, ⟨hlogin.1, hlogin.2, hparse⟩, hun⟩
        rw [hexists]
        exact ⟨fun hnot => ⟨hprobe, hnot⟩, fun hnot => hnot.2⟩
  · rw [if_neg hlogin]
    refine iff_of_true (responseConsistent_error (by simp) (by simp) _ _) ⟨hprobe, ?_⟩
    intro hsome
    obtain ⟨name, word, hreq, -⟩ := hsome
    exact hlogin ⟨hreq.1, hreq.2.1⟩

/-! ### A profile that cannot be loaded -/

/-- The demo user's password hashes to this; nothing else is asked for. -/
def demoSha256 (plain : String) : Bytes :=
  if plain = "demo123" then
    [0xd3, 0xad, 0x93, 0x15, 0xb7, 0xbe, 0x5d, 0xd5, 0x3b, 0x31, 0xa2,
      0x73, 0xb3, 0xb3, 0xab, 0xa5, 0xde, 0xfe, 0x70, 0x08, 0x08, 0x30,
      0x5a, 0xa1, 0x6a, 0x30, 0x62, 0xb7, 0x66, 0x58, 0xa7, 0x91]
  else []

/-- The demo user is there, but the table of profiles is not. -/
def demoDatabase : Database where
  credential username :=
    if username = "demo" then
      .ok (some
        { userId := 1
          username := "demo"
          passwordHash := "d3ad9315b7be5dd53b31a273b3b3aba5defe700808305aa16a3062b76658a791"
          status := 1 })
    else .ok none
  profile _ := .error "Table 'CCMeeting.sys_user_profiles' doesn't exist"
  insertLog _ := .ok ()

def demoBody : String := "\x7b\"username\":\"demo\",\"password\":\"demo123\"\x7d"

def demoParse (body : String) : Option Json :=
  if body = demoBody then
    some (.obj [("username", .str "demo"), ("password", .str "demo123")])
  else none

def demoRequest : Request where
  method := .post
  target := "/api/login"
  body := demoBody

/-- **A login that fails on the server is answered as a success**: the status is 200, there is
data, and the code is 500. -/
theorem unloadedLogin :
    (login demoSha256 demoDatabase "demo" "demo123" "127.0.0.1" "").result
        = { success := true, code := 500, message := "internal server error" } ∧
      (handleRequest demoSha256 demoParse demoDatabase none demoRequest).status = .ok ∧
      ¬ LoginConsistent demoSha256 demoDatabase "demo" "demo123"
        (login demoSha256 demoDatabase "demo" "demo123" "127.0.0.1" "").result ∧
      ¬ ResponseConsistent (handleRequest demoSha256 demoParse demoDatabase none demoRequest) := by
  have hresult : (login demoSha256 demoDatabase "demo" "demo123" "127.0.0.1" "").result
      = { success := true, code := 500, message := "internal server error" } := by
    decide +kernel
  have hstatus :
      (handleRequest demoSha256 demoParse demoDatabase none demoRequest).status = .ok := by
    decide +kernel
  refine ⟨hresult, hstatus, fun hgood => ?_, fun hgood => ?_⟩
  · have hzero := hgood.success.mp (by rw [hresult])
    rw [hresult] at hzero
    simp at hzero
  · have hbody : (handleRequest demoSha256 demoParse demoDatabase none demoRequest).body
        = some (toLoginResponseJson { success := true, code := 500,
                                      message := "internal server error" }) := by
      rfl
    rw [responseConsistent_iff hbody] at hgood
    simp [hstatus] at hgood

end CloudMeeting.Auth
