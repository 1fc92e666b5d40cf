/-
The audit of logins.

Once the database has found a user, each way out of `AuthService::login` writes a row
with `insert_login_log`, except one: the `catch` block writes none.  After the password
has been checked the profile is loaded and the row is written only then, so a query for
the profile that throws leaves a right password without a row.  `audited_iff` says that
this is the only way to lose one.
-/
import CloudMeeting.Auth.Http

namespace CloudMeeting.Auth

variable {sha256 : String → Bytes} {db : Database} {username password : String}

/-- The lookup is made, and finds this user. -/
structure LooksUp (db : Database) (username password : String) (credential : UserCredential) :
    Prop where
  named : username ≠ ""
  given : password ≠ ""
  found : findCredentialByUsername db username = .ok (some credential)

theorem Admits.looksUp {credential : UserCredential}
    (h : Admits sha256 db username password credential) :
    LooksUp db username password credential :=
  ⟨h.named, h.given, h.found⟩

/-- A user who is found is audited with one call, which says what the result says. -/
def Audited (db : Database) (username password : String) (a : Attempt) : Prop :=
  ∀ credential, LooksUp db username password credential → credential.userId ≠ 0 →
    ∃ call, a.calls = [call] ∧ call.userId = credential.userId ∧
      (call.success = true ↔ a.result.code = 0)

@[simp] theorem log_calls (a : Attempt) (call : LogCall) :
    (a.log db call).calls = a.calls ++ [call] := by
  obtain ⟨row, hrow⟩ := insertLoginLog_ok db call
  rw [Attempt.log, hrow]

@[simp] theorem fill_code (a : Attempt) (code : Int) (message : String) :
    (a.fill code message).result.code = code := rfl

@[simp] theorem fill_calls (a : Attempt) (code : Int) (message : String) :
    (a.fill code message).calls = a.calls := rfl

/-! ### The ways out, once the user is found -/

/-- Whoever is found and not admitted is refused, with a row that says so. -/
theorem login_not_admitted {credential : UserCredential}
    (hup : LooksUp db username password credential)
    (hnot : ¬ Admits sha256 db username password credential) (clientIp deviceInfo : String) :
    (login sha256 db username password clientIp deviceInfo).calls
        = [⟨credential.userId, clientIp, deviceInfo, false⟩] ∧
      (login sha256 db username password clientIp deviceInfo).result.code ≠ 0 := by
  have hgiven : ¬ (username = "" ∨ password = "") := not_or.mpr ⟨hup.named, hup.given⟩
  simp only [login, if_neg hgiven, hup.found]
  by_cases hstatus : credential.status ≠ 1
  · rw [if_pos hstatus]
    simp
  rw [if_neg hstatus]
  by_cases hverify : ¬ verifyPassword sha256 password credential.passwordHash = true
  · rw [if_pos hverify]
    simp
  · exact absurd ⟨hup.named, hup.given, hup.found, not_not.mp hstatus, not_not.mp hverify⟩ hnot

/-- Whoever is admitted and whose profile is loaded is let in, with a row that says so. -/
theorem login_loaded {credential : UserCredential}
    (h : Admits sha256 db username password credential)
    (hprofile : ¬ ∃ what, db.profile credential.userId = .error what)
    (clientIp deviceInfo : String) :
    (login sha256 db username password clientIp deviceInfo).calls
        = [⟨credential.userId, clientIp, deviceInfo, true⟩] ∧
      (login sha256 db username password clientIp deviceInfo).result.code = 0 := by
  have hgiven : ¬ (username = "" ∨ password = "") := not_or.mpr ⟨h.named, h.given⟩
  cases hload : loadUserInfo db credential.userId credential.username with
  | error what => exact absurd ⟨what, loadUserInfo_error.mp hload⟩ hprofile
  | ok user => simp [login, hgiven, h.found, h.normal, h.verified, hload]

/-- Where the query for the profile throws, no row is written. -/
theorem login_unloaded {credential : UserCredential}
    (h : Admits sha256 db username password credential) {what : String}
    (hprofile : db.profile credential.userId = .error what) (clientIp deviceInfo : String) :
    (login sha256 db username password clientIp deviceInfo).calls = [] := by
  have hgiven : ¬ (username = "" ∨ password = "") := not_or.mpr ⟨h.named, h.given⟩
  have hload : loadUserInfo db credential.userId credential.username = .error what :=
    loadUserInfo_error.mpr hprofile
  simp [login, hgiven, h.found, h.normal, h.verified, hload, Attempt.caught]

/-! ### When every user found is audited -/

/-- A user with an id is admitted, but the query for the profile throws. -/
def Unaudited (sha256 : String → Bytes) (db : Database) (username password : String) : Prop :=
  ∃ credential, Admits sha256 db username password credential ∧ credential.userId ≠ 0 ∧
    ∃ what, db.profile credential.userId = .error what

/-- **When a login is audited**, for every database and every query that throws. -/
theorem audited_iff (sha256 : String → Bytes) (db : Database)
    (username password clientIp deviceInfo : String) :
    Audited db username password (login sha256 db username password clientIp deviceInfo) ↔
      ¬ Unaudited sha256 db username password := by
  constructor
  · intro haudited hlost
    obtain ⟨credential, hadmits, hid, what, hprofile⟩ := hlost
    obtain ⟨call, hcalls, -⟩ := haudited credential hadmits.looksUp hid
    rw [login_unloaded hadmits hprofile] at hcalls
    simp at hcalls
  · intro hkept credential hup hid
    by_cases hadmits : Admits sha256 db username password credential
    · have hprofile : ¬ ∃ what, db.profile credential.userId = .error what := by
        intro hthrows
        exact hkept ⟨credential, hadmits, hid, hthrows⟩
      obtain ⟨hcalls, hcode⟩ := login_loaded hadmits hprofile clientIp deviceInfo
      exact ⟨_, hcalls, rfl, by simp [hcode]⟩
    · obtain ⟨hcalls, hcode⟩ := login_not_admitted hup hadmits clientIp deviceInfo
      exact ⟨_, hcalls, rfl, by simp [hcode]⟩

/-- **The demo user gives the right password and no row is written.** -/
theorem unauditedLogin :
    ¬ Audited demoDatabase "demo" "demo123"
      (login demoSha256 demoDatabase "demo" "demo123" "127.0.0.1" "") := by
  intro haudited
  obtain ⟨credential, hfound⟩ :
      ∃ credential, demoDatabase.credential "demo" = .ok (some credential) ∧
        credential.userId = 1 := ⟨_, rfl, rfl⟩
  have hup : LooksUp demoDatabase "demo" "demo123" credential := ⟨by simp, by simp, hfound.1⟩
  obtain ⟨call, hcalls, -⟩ := haudited credential hup (by rw [hfound.2]; simp)
  have hnone : (login demoSha256 demoDatabase "demo" "demo123" "127.0.0.1" "").calls = [] := by
    decide +kernel
  rw [hnone] at hcalls
  simp at hcalls

end CloudMeeting.Auth
