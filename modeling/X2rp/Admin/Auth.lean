import X2rp.Admin.Names
import X2rp.Http
import X2rp.Proto.Message

/-! Who a request comes from: admin sessions with their CSRF tokens, and connectors' bearer
tokens. -/
namespace X2rp.Admin

open Proto Http

def sessionIdleTtlSecs : Nat := 300

def sessionAbsoluteTtlSecs : Nat := 28800

def maxAdminSessions : Nat := 1000

def adminSessionCookie : String := "__Host-x2rp_session"

/-- Times are in nanoseconds. -/
structure AdminSession where
  csrfToken : String
  createdAt : Nat
  lastAccess : Nat
deriving DecidableEq, Repr

/-- Whole seconds, and none when the clock has been set back. -/
def elapsedSecsSince (now timestamp : Nat) : Nat := (now - timestamp) / 10 ^ 9

def adminSessionExpired (now : Nat) (session : AdminSession) : Bool :=
  decide (sessionIdleTtlSecs < elapsedSecsSince now session.lastAccess) ||
    decide (sessionAbsoluteTtlSecs < elapsedSecsSince now session.createdAt)

/-- `AuthService.admin_sessions`, in the order in which the map is walked. -/
abbrev Sessions := List (String × AdminSession)

namespace Sessions

variable (sessions : Sessions) (now : Nat) (sid : String)

def get : Option AdminSession := (sessions.find? fun entry => entry.1 == sid).map Prod.snd

def remove : Sessions := sessions.filter fun entry => entry.1 ≠ sid

def insert (session : AdminSession) : Sessions := sessions.remove sid ++ [(sid, session)]

/-- Whether the session is good. One that is good has just been used, and one that has expired is
forgotten. -/
def validateAdminSession : Sessions × Bool :=
  match sessions.get sid with
  | none => (sessions, false)
  | some session =>
    if adminSessionExpired now session then (sessions.remove sid, false)
    else (sessions.map fun entry =>
      if entry.1 = sid then (sid, { entry.2 with lastAccess := now }) else entry, true)

def validateAdminCsrf (csrfToken : String) : Bool :=
  (sessions.get sid).any fun session =>
    !adminSessionExpired now session && session.csrfToken == csrfToken

def cleanupExpired : Sessions := sessions.filter fun entry => !adminSessionExpired now entry.2

/-- Expired sessions go first, then the least recently used. -/
def makeRoom : Sessions :=
  if sessions.length < maxAdminSessions then sessions
  else
    let kept := sessions.cleanupExpired now
    let excess := kept.length + 1 - maxAdminSessions
    let oldest := kept.mergeSort fun a b => decide (a.2.lastAccess ≤ b.2.lastAccess)
    (oldest.take excess).foldl (fun sessions entry => sessions.remove entry.1) kept

def createAdminSession (csrfToken : String) : Sessions :=
  (sessions.makeRoom now).insert sid ⟨csrfToken, now, now⟩

theorem validateAdminCsrf_iff {csrfToken : String} :
    sessions.validateAdminCsrf now sid csrfToken = true ↔ ∃ session, sessions.get sid = some session ∧
      adminSessionExpired now session = false ∧ session.csrfToken = csrfToken := by
  simp [validateAdminCsrf, Option.any_eq_true]

end Sessions

/-- What comes before and after the first `c`. -/
def splitOnce (c : Char) (s : String) : Option (String × String) :=
  match s.toList.dropWhile fun c' => c' ≠ c with
  | [] => none
  | _ :: rest => some (.ofList (s.toList.takeWhile fun c' => c' ≠ c), .ofList rest)

def extractCookie (cookies name : String) : Option String :=
  (cookies.toList.splitOn ';').findSome? fun c => do
    let (k, v) ← splitOnce '=' (trim (.ofList c))
    if k = name then some v else none

/-- A connector's token from `Authorization: Bearer <token>`. -/
def bearerToken (headers : Headers) : Option String := do
  let value ← (headers.get "authorization").bind toStr
  let (scheme, rest) ← splitOnce ' ' value
  let token := String.ofList (rest.toList.dropWhile fun c => c = ' ')
  if eqIgnoreAsciiCase scheme "bearer" && 1 ≤ token.utf8ByteSize &&
      token.utf8ByteSize ≤ maxAuthTokenLen then some token
  else none

end X2rp.Admin
