import OrderLifecycle.Database.Entities
import OrderLifecycle.Framework.Program

open Framework

namespace OrderLifecycle.Auth

/-! ### Entities -/

inductive UserRole
  | user
  | admin
  deriving DecidableEq, Repr

structure UserEntity where
  id : UserId
  email : String
  password : String
  role : UserRole
  disabled : Bool
  deriving DecidableEq, Repr

/-- Only the hash of a refresh token is stored. Times are in milliseconds. -/
structure RefreshTokenEntity where
  id : Uuid
  userId : UserId
  familyId : Uuid
  tokenHash : String
  expiresAt : Nat
  revoked : Bool
  createdAt : Nat
  deriving DecidableEq, Repr

structure TokenPair where
  accessToken : String
  refreshToken : String
  deriving DecidableEq, Repr

structure JwtPayload where
  sub : UserId
  role : UserRole
  deriving DecidableEq, Repr

structure LoginDTO where
  email : String
  password : String
  deriving DecidableEq, Repr

inductive AuthError
  | unauthorized (message : String)
  | database
  | signing
  deriving DecidableEq, Repr

/-! ### The shared state -/

/-- How far a call has come: a login opens a family and stores its first token; a rotation
claims a token and stores its successor. -/
inductive Progress
  | start
  | opened (familyId : Uuid)
  | first (familyId id : Uuid)
  | claimed (id : Uuid)
  | rotated (id successor : Uuid)
  deriving DecidableEq, Repr

def Progress.issue : Progress → Uuid → Progress
  | opened familyId, id => first familyId id
  | claimed id, successor => rotated id successor
  | p, _ => p

/-- The two tables, in insertion order, and a history: the families opened, those revoked on
reuse, and how far each call has come. -/
structure AuthWorld where
  users : List UserEntity
  tokens : List RefreshTokenEntity
  families : List Uuid
  revocations : List Uuid
  calls : Tid → Progress

/-- What the scheduler decides for one statement: whether it fails, the generated id, the
random bytes, the clock. -/
structure AuthChoice where
  fail : Bool := false
  fresh : Uuid := 0
  bytes : String := ""
  now : Nat := 0

abbrev AuthService (α : Type) := Action AuthWorld AuthChoice AuthError α

/-- Libraries and configuration: SHA-256, `bcrypt.compare`, the signature of an access token,
`normalizeEmail` and `jwt.refreshExpiresInDays`. `normalizeEmail`, which is `trim` and then
`toLowerCase`, is left open: Unicode decides what lower case is, and nothing here depends on which
form of an email is the canonical one. -/
structure Crypto where
  sha256 : String → String
  compare : String → String → Bool
  sign : JwtPayload → String
  normalizeEmail : String → String
  refreshExpiresInDays : Option Nat

def dayInMs : Nat := 24 * 60 * 60 * 1000

def refreshTokenTtlDefaultDays : Nat := 7

/-! ### Statements -/

/-- A statement that runs on its own, outside any transaction. -/
def query {α : Type} (f : Tid → AuthChoice → AuthWorld → Option (Except AuthError α × AuthWorld)) :
    AuthService α :=
  stmt fun t ch w => if ch.fail then some (.error .database, w) else f t ch w

/-- `findOne` by token hash, with the relation `user`. -/
def findByHash (tokenHash : String) :
    AuthService (Option (RefreshTokenEntity × Option UserEntity)) :=
  query fun _ _ w =>
    some (.ok ((w.tokens.find? fun row => row.tokenHash == tokenHash).map fun row =>
      (row, w.users.find? fun user => user.id == row.userId)), w)

def RefreshTokenEntity.revoke (row : RefreshTokenEntity) : RefreshTokenEntity :=
  { row with revoked := true }

/-- `UPDATE … SET revoked = true WHERE p`. -/
def revokeWhere (p : RefreshTokenEntity → Bool) (tokens : List RefreshTokenEntity) :
    List RefreshTokenEntity :=
  tokens.map fun row => if p row then row.revoke else row

/-- `WHERE id = … AND revoked = false`. -/
def claimable (id : Uuid) (row : RefreshTokenEntity) : Bool := row.id == id && !row.revoked

/-- The atomic claim: the number of rows affected. -/
def claimToken (id : Uuid) : AuthService Nat :=
  query fun t _ w =>
    let affected := w.tokens.countP (claimable id)
    some (.ok affected, { w with
      tokens := revokeWhere (claimable id) w.tokens
      calls := if affected = 0 then w.calls else Function.update w.calls t (.claimed id) })

def revokeFamily (familyId : Uuid) : AuthService Unit :=
  query fun _ _ w =>
    some (.ok (), { w with
      tokens := revokeWhere (fun row => row.familyId == familyId) w.tokens
      revocations := w.revocations ++ [familyId] })

/-- `Date.now()`. -/
def clock : AuthService Nat := stmt fun _ ch w => some (.ok ch.now, w)

/-- `randomUUID()`, the default family of `issueTokens`: never one drawn before. -/
def openFamily : AuthService Uuid :=
  stmt fun t ch w =>
    if ch.fresh ∈ w.families then none
    else some (.ok ch.fresh, { w with
      families := w.families ++ [ch.fresh]
      calls := Function.update w.calls t (.opened ch.fresh) })

/-- `randomBytes(48).toString('base64url')`. -/
def randomToken : AuthService String := stmt fun _ ch w => some (.ok ch.bytes, w)

/-- `jwtService.signAsync`. -/
def signAsync (C : Crypto) (payload : JwtPayload) : AuthService String :=
  stmt fun _ ch w => some (if ch.fail then .error .signing else .ok (C.sign payload), w)

/-- `save` of a new row, with a generated id that is not in use. The hash is unique, and the
user must exist. -/
def insertToken (userId : UserId) (familyId : Uuid) (tokenHash : String) (lifetime : Nat) :
    AuthService Unit :=
  query fun t ch w =>
    if w.tokens.any fun row => row.id == ch.fresh then none
    else if (w.tokens.any fun row => row.tokenHash == tokenHash) ||
        !w.users.any fun user => user.id == userId then
      some (.error .database, w)
    else
      some (.ok (), { w with
        tokens := w.tokens ++ [⟨ch.fresh, userId, familyId, tokenHash, ch.now + lifetime, false, ch.now⟩]
        calls := Function.update w.calls t ((w.calls t).issue ch.fresh) })

/-! ### `TokenService` -/

def hashRefreshToken (C : Crypto) (token : String) : String := C.sha256 token

def invalidRefreshToken : AuthError := .unauthorized "Invalid refresh token"

def createRefreshToken (C : Crypto) (userId : UserId) (familyId : Uuid) : AuthService String := do
  let refreshToken ← randomToken
  let days := C.refreshExpiresInDays.getD refreshTokenTtlDefaultDays
  insertToken userId familyId (hashRefreshToken C refreshToken) (days * dayInMs)
  return refreshToken

def issueTokens (C : Crypto) (user : UserEntity) (familyId : Uuid) : AuthService TokenPair := do
  let accessToken ← signAsync C { sub := user.id, role := user.role }
  let refreshToken ← createRefreshToken C user.id familyId
  return { accessToken, refreshToken }

def revokeFamilyOnReuse {α : Type} (stored : RefreshTokenEntity) : AuthService α := do
  revokeFamily stored.familyId
  throw invalidRefreshToken

/-- The atomic claim of `rotate` and what follows it. -/
def claimAndIssue (C : Crypto) (stored : RefreshTokenEntity) (user : UserEntity) :
    AuthService TokenPair := do
  let affected ← claimToken stored.id
  if affected = 0 then revokeFamilyOnReuse stored
  else issueTokens C user stored.familyId

def rotate (C : Crypto) (presentedToken : String) : AuthService TokenPair := do
  let found ← findByHash (hashRefreshToken C presentedToken)
  match found with
  | none => throw invalidRefreshToken
  | some (stored, user) =>
    if user.any (·.disabled) then throw invalidRefreshToken
    else if stored.revoked then revokeFamilyOnReuse stored
    else do
      let now ← clock
      if stored.expiresAt ≤ now then throw invalidRefreshToken
      else
        match user with
        | none => throw invalidRefreshToken
        | some user => claimAndIssue C stored user

/-! ### `AuthService.login` -/

/-- The hash compared against when there is no such user. -/
def dummyPasswordHash : String := "$2b$10$xxXAnAbW0LPKpm7mhKYEbu/8wJV8K51H7x/qrnGzLJB/4s1dtYRJa"

def findUserByEmail (email : String) : AuthService (Option UserEntity) :=
  query fun _ _ w => some (.ok (w.users.find? fun user => user.email == email), w)

def invalidCredentials : AuthError := .unauthorized "Invalid credentials"

def login (C : Crypto) (dto : LoginDTO) : AuthService TokenPair := do
  let user ← findUserByEmail (C.normalizeEmail dto.email)
  let passwordMatches :=
    C.compare dto.password ((user.map (·.password)).getD dummyPasswordHash)
  match user with
  | none => throw invalidCredentials
  | some user =>
    if passwordMatches = false then throw invalidCredentials
    else if user.disabled then throw invalidCredentials
    else do
      let familyId ← openFamily
      issueTokens C user familyId

/-! ### The system -/

inductive AuthRequest
  | login (dto : LoginDTO)
  | refresh (presentedToken : String)
  deriving DecidableEq, Repr

/-- An administrator disables or enables a user. -/
structure SetDisabled where
  id : UserId
  disabled : Bool

def respond (C : Crypto) : AuthRequest → AuthService TokenPair
  | .login dto => login C dto
  | .refresh presentedToken => rotate C presentedToken

/-- No statement runs in a transaction, so the death of a call undoes nothing. -/
def authSystem (C : Crypto) :
    System AuthWorld AuthChoice AuthRequest SetDisabled (Except AuthError TokenPair) where
  body := fun request => (respond C request).run
  enabled := fun _ _ => true
  env := fun e w => some { w with
    users := w.users.map fun user =>
      if user.id = e.id then { user with disabled := e.disabled } else user }
  crash := fun _ w => w

/-- Registered users, and nobody logged in. -/
def AuthWorld.initial (users : List UserEntity) : AuthWorld := ⟨users, [], [], [], fun _ => .start⟩

end OrderLifecycle.Auth
