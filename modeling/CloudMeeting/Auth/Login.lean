/-
The login service.

`AuthService::login` checks a user's credentials against the database and writes an audit
row.  Its result is one object that is filled in on the way, inside a `try`: wherever a
call of the repository throws, the `catch` gets the object as it is by then and only
changes its code and message.

The database is outside: each of its queries answers or throws, as it likes (`Database`).
So is the hash function.
-/
import CloudMeeting.Lib.Endian

namespace CloudMeeting.Auth

/-! ### Data -/

structure UserInfo where
  id : UInt64 := 0
  name : String := ""
  avatar : String := ""
  info : String := ""
deriving DecidableEq, Repr

structure LoginResult where
  success : Bool := false
  /-- 0 for success. -/
  code : Int := 0
  message : String := ""
  /-- The user's public data, when successful. -/
  user : UserInfo := {}
deriving DecidableEq, Repr

structure UserCredential where
  userId : UInt64 := 0
  username : String := ""
  passwordHash : String := ""
  /-- 1 for a normal account, 2 for a disabled one, 3 for a locked one. -/
  status : UInt32 := 0
deriving DecidableEq, Repr

/-- A row of `sys_user_profiles`; a column may be null. -/
structure Profile where
  nickname : Option String := none
  avatarUrl : Option String := none
  info : Option String := none

/-- A row of `sys_user_login_logs`. -/
structure LogRow where
  userId : UInt64
  loginIp : String
  deviceInfo : String
  status : Nat
deriving DecidableEq, Repr

/-- The queries the repository makes, each of which may throw. -/
structure Database where
  credential : String → Except String (Option UserCredential)
  profile : UInt64 → Except String (Option Profile)
  insertLog : LogRow → Except String Unit

/-- The arguments of a call of `insert_login_log`. -/
structure LogCall where
  userId : UInt64
  loginIp : String
  deviceInfo : String
  success : Bool
deriving DecidableEq, Repr

/-! ### `UserRepository` -/

section Repository

variable (db : Database)

def findCredentialByUsername (username : String) : Except String (Option UserCredential) :=
  db.credential username

def loadUserInfo (userId : UInt64) (fallbackName : String) : Except String UserInfo :=
  let info : UserInfo := { id := userId, name := fallbackName }
  match db.profile userId with
  | .error what => .error what
  | .ok none => .ok info
  | .ok (some row) =>
      let nickname := row.nickname.getD ""
      .ok { info with
        name := if nickname ≠ "" then nickname else info.name
        avatar := row.avatarUrl.getD info.avatar
        info := row.info.getD info.info }

/-- What is written, if anything is; exceptions are caught here. -/
def insertLoginLog (call : LogCall) : Except String (Option LogRow) :=
  if call.userId = 0 then .ok none
  else
    let row : LogRow :=
      { userId := call.userId
        loginIp := if call.loginIp = "" then "unknown" else call.loginIp
        deviceInfo := call.deviceInfo
        status := if call.success then 1 else 0 }
    match db.insertLog row with
    | .ok () => .ok (some row)
    | .error _ => .ok none

end Repository

/-! ### Passwords -/

/-- The digest in hexadecimal, two digits a byte. -/
def sha256Hex (sha256 : String → Bytes) (plain : String) : String :=
  String.ofList ((sha256 plain).flatMap fun byte =>
    [Nat.digitChar (byte.toNat / 16), Nat.digitChar (byte.toNat % 16)])

def verifyPassword (sha256 : String → Bytes) (plain expectedHash : String) : Bool :=
  sha256Hex sha256 plain = expectedHash

/-! ### `AuthService` -/

/-- A login on its way: the result so far, and the calls of `insert_login_log`. -/
structure Attempt where
  result : LoginResult := {}
  calls : List LogCall := []

namespace Attempt

def fill (a : Attempt) (code : Int) (message : String) : Attempt :=
  { a with result := { a.result with code := code, message := message } }

/-- The `catch` block. -/
def caught (a : Attempt) : Attempt := a.fill 500 "internal server error"

def log (db : Database) (a : Attempt) (call : LogCall) : Attempt :=
  let a := { a with calls := a.calls ++ [call] }
  match insertLoginLog db call with
  | .ok _ => a
  | .error _ => a.caught

end Attempt

def login (sha256 : String → Bytes) (db : Database)
    (username password clientIp deviceInfo : String) : Attempt :=
  let a : Attempt := {}
  if username = "" ∨ password = "" then a.fill 400 "username and password are required"
  else
    match findCredentialByUsername db username with
    | .error _ => a.caught
    | .ok none => a.fill 401 "invalid username or password"
    | .ok (some credential) =>
        if credential.status ≠ 1 then
          (a.fill 403 "account disabled or locked").log db
            ⟨credential.userId, clientIp, deviceInfo, false⟩
        else if ¬ verifyPassword sha256 password credential.passwordHash then
          (a.fill 401 "invalid username or password").log db
            ⟨credential.userId, clientIp, deviceInfo, false⟩
        else
          let a := { a with result := { a.result with success := true } }.fill 0 "ok"
          match loadUserInfo db credential.userId credential.username with
          | .error _ => a.caught
          | .ok user =>
              { a with result := { a.result with user := user } }.log db
                ⟨credential.userId, clientIp, deviceInfo, true⟩

/-! ### What the result says -/

variable {sha256 : String → Bytes} {db : Database} {username password : String}

/-- `insert_login_log` throws nothing. -/
theorem insertLoginLog_ok (db : Database) (call : LogCall) :
    ∃ row, insertLoginLog db call = .ok row := by
  unfold insertLoginLog
  split
  · exact ⟨_, rfl⟩
  · simp only []
    split
    · exact ⟨_, rfl⟩
    · exact ⟨_, rfl⟩

@[simp] theorem log_result (a : Attempt) (call : LogCall) : (a.log db call).result = a.result := by
  obtain ⟨row, hrow⟩ := insertLoginLog_ok db call
  rw [Attempt.log, hrow]

/-- The database knows the user, the account is normal and the password is right. -/
structure Admits (sha256 : String → Bytes) (db : Database) (username password : String)
    (credential : UserCredential) : Prop where
  named : username ≠ ""
  given : password ≠ ""
  found : findCredentialByUsername db username = .ok (some credential)
  normal : credential.status = 1
  verified : verifyPassword sha256 password credential.passwordHash = true

/-- The user is admitted, but the query for the profile throws. -/
def Unloaded (sha256 : String → Bytes) (db : Database) (username password : String) : Prop :=
  ∃ credential, Admits sha256 db username password credential ∧
    ∃ what, db.profile credential.userId = .error what

/-- Whoever is admitted is admitted with the one credential the database has. -/
theorem Admits.eq_of_found {credential other : UserCredential}
    (h : Admits sha256 db username password other)
    (hfind : findCredentialByUsername db username = .ok (some credential)) :
    other = credential := by
  have hfound := h.found
  rw [hfind] at hfound
  simpa using hfound.symm

/-- Nobody is admitted where the query for the credential throws or finds nothing. -/
theorem not_unloaded_of_find
    (h : ∀ credential, findCredentialByUsername db username ≠ .ok (some credential)) :
    ¬ Unloaded sha256 db username password := by
  intro hun
  obtain ⟨credential, hadmits, -⟩ := hun
  exact h credential hadmits.found

theorem loadUserInfo_error {userId : UInt64} {name what : String} :
    loadUserInfo db userId name = .error what ↔ db.profile userId = .error what := by
  unfold loadUserInfo
  cases db.profile userId with
  | error other => simp
  | ok row => cases row <;> simp

/-- How a login ends: with the data of a user who is admitted, with a code alone, or with both the
success of the one and a code of the other. -/
inductive Ends (sha256 : String → Bytes) (db : Database) (username password : String)
    (r : LoginResult) : Prop
  | granted (credential : UserCredential) (h : Admits sha256 db username password credential)
      (hload : loadUserInfo db credential.userId credential.username = .ok r.user)
      (hsuccess : r.success = true) (hcode : r.code = 0)
  | refused (hnot : ¬ Unloaded sha256 db username password) (hsuccess : r.success = false)
      (hcode : r.code = 400 ∨ r.code = 401 ∨ r.code = 403 ∨ r.code = 500)
  | halfway (h : Unloaded sha256 db username password) (hsuccess : r.success = true)
      (hcode : r.code = 500)

variable (sha256 db username password) in
theorem login_ends (clientIp deviceInfo : String) :
    Ends sha256 db username password
      (login sha256 db username password clientIp deviceInfo).result := by
  unfold login
  by_cases hempty : username = "" ∨ password = ""
  · rw [if_pos hempty]
    refine .refused (fun hun => ?_) rfl (Or.inl rfl)
    obtain ⟨credential, hadmits, -⟩ := hun
    exact hempty.elim hadmits.named hadmits.given
  rw [if_neg hempty]
  cases hfind : findCredentialByUsername db username with
  | error what =>
      exact .refused (not_unloaded_of_find (by simp [hfind])) rfl (Or.inr (Or.inr (Or.inr rfl)))
  | ok found =>
      cases found with
      | none =>
          exact .refused (not_unloaded_of_find (by simp [hfind])) rfl (Or.inr (Or.inl rfl))
      | some credential =>
          simp only []
          by_cases hstatus : credential.status ≠ 1
          · rw [if_pos hstatus, log_result]
            refine .refused (fun hun => ?_) rfl (Or.inr (Or.inr (Or.inl rfl)))
            obtain ⟨other, hadmits, -⟩ := hun
            exact hstatus (hadmits.eq_of_found hfind ▸ hadmits.normal)
          rw [if_neg hstatus]
          by_cases hverify : ¬ verifyPassword sha256 password credential.passwordHash = true
          · rw [if_pos hverify, log_result]
            refine .refused (fun hun => ?_) rfl (Or.inr (Or.inl rfl))
            obtain ⟨other, hadmits, -⟩ := hun
            exact hverify (hadmits.eq_of_found hfind ▸ hadmits.verified)
          rw [if_neg hverify]
          rw [not_or] at hempty
          have hadmits : Admits sha256 db username password credential :=
            ⟨hempty.1, hempty.2, hfind, not_not.mp hstatus, not_not.mp hverify⟩
          cases hload : loadUserInfo db credential.userId credential.username with
          | error what =>
              exact .halfway ⟨credential, hadmits, what, loadUserInfo_error.mp hload⟩ rfl rfl
          | ok user =>
              simp only [log_result]
              exact .granted credential hadmits hload rfl rfl

/-- Success and code say the same, and a code of 0 that the user has been let in. -/
structure LoginConsistent (sha256 : String → Bytes) (db : Database) (username password : String)
    (r : LoginResult) : Prop where
  success : r.success = true ↔ r.code = 0
  admitted : r.code = 0 → ∃ credential, Admits sha256 db username password credential ∧
    loadUserInfo db credential.userId credential.username = .ok r.user

theorem Ends.loginConsistent_iff {r : LoginResult} (h : Ends sha256 db username password r) :
    LoginConsistent sha256 db username password r ↔ ¬ Unloaded sha256 db username password := by
  cases h with
  | granted credential hadmits hload hsuccess hcode =>
      refine iff_of_true ⟨by simp [hsuccess, hcode], fun _ => ⟨credential, hadmits, hload⟩⟩ ?_
      intro hun
      obtain ⟨other, hother, what, hwhat⟩ := hun
      obtain rfl := hother.eq_of_found hadmits.found
      rw [loadUserInfo_error.mpr hwhat] at hload
      simp at hload
  | refused hnot hsuccess hcode =>
      have hne : r.code ≠ 0 := by omega
      exact iff_of_true ⟨by simp [hsuccess, hne], fun hzero => absurd hzero hne⟩ hnot
  | halfway hun hsuccess hcode =>
      refine iff_of_false (fun hgood => ?_) (not_not.mpr hun)
      have hzero := hgood.success.mp hsuccess
      rw [hcode] at hzero
      simp at hzero

end CloudMeeting.Auth
