import OrderLifecycle.Auth.Registration

open Framework

namespace OrderLifecycle.Auth

/-! ### Guards -/

/-- `jwtService.verifyAsync` at a moment: a token shows what was signed, or does not pass. -/
structure JwtVerifier (C : Crypto) where
  verify : Nat → String → Option JwtPayload
  verify_sign : ∀ now payload payload',
    verify now (C.sign payload) = some payload' → payload' = payload

inductive HttpError
  | unauthorized
  | forbidden (message : String)
  | notFound (message : String)
  | database
  deriving DecidableEq, Repr

abbrev AdminService (α : Type) := Action AuthWorld AuthChoice HttpError α

variable {C : Crypto}

/-- `header.split(' ')` -/
def words (header : String) : List String := (header.toList.splitOn ' ').map String.ofList

/-- The second word of the `Authorization` header, if the first is `Bearer`. -/
def extractBearerToken (authorization : Option String) : Option String :=
  match (authorization.map words).getD [] with
  | scheme :: token :: _ => if scheme = "Bearer" then some token else none
  | _ => none

def verifyAsync (V : JwtVerifier C) (token : String) : AdminService JwtPayload :=
  stmt fun _ ch w =>
    match V.verify ch.now token with
    | none => some (.error .unauthorized, w)
    | some payload => some (.ok payload, w)

/-- `JwtAuthGuard.canActivate`, with the payload that it attaches to the request. An empty token
counts as none. -/
def jwtAuthGuard (V : JwtVerifier C) (authorization : Option String) : AdminService JwtPayload :=
  match extractBearerToken authorization with
  | none => throw .unauthorized
  | some token => if token = "" then throw .unauthorized else verifyAsync V token

/-- `RolesGuard.canActivate`: an administrator has every role. -/
def rolesGuard (requiredRoles : List UserRole) (user : JwtPayload) : Bool :=
  requiredRoles.isEmpty || user.role == .admin || requiredRoles.contains user.role

/-- `@UseGuards(JwtAuthGuard, RolesGuard)` and `@Roles(…)`. -/
def useGuards (V : JwtVerifier C) (requiredRoles : List UserRole) (authorization : Option String) :
    AdminService JwtPayload := do
  let user ← jwtAuthGuard V authorization
  if rolesGuard requiredRoles user then return user
  else throw (.forbidden "Insufficient permissions")

/-! ### `UserService` -/

/-- A statement that runs on its own, outside any transaction. -/
def adminQuery {α : Type} (f : AuthWorld → α × AuthWorld) : AdminService α :=
  stmt fun _ ch w => if ch.fail then some (.error .database, w) else some (.ok (f w).1, (f w).2)

def listUsers : AdminService (List UserEntity) := adminQuery fun w => (w.users, w)

def findUserById (id : UserId) : AdminService (Option UserEntity) :=
  adminQuery fun w => (w.users.find? fun user => user.id == id, w)

/-- `UPDATE users SET disabled = … WHERE id = …` -/
def switchWhere (id : UserId) (disabled : Bool) (users : List UserEntity) : List UserEntity :=
  users.map fun user => if user.id = id then { user with disabled := disabled } else user

def updateDisabled (id : UserId) (disabled : Bool) : AdminService Unit :=
  adminQuery fun w => ((), { w with users := switchWhere id disabled w.users })

/-- `save` of an entity that was read before: it reads the row again, and updates the columns that
differ. Nothing but `disabled` ever does: a stored email is in its canonical form already. -/
def saveDisabled (user : UserEntity) : AdminService UserEntity := do
  let current ← findUserById user.id
  if current.any fun row => row.disabled == user.disabled then return user
  else do
    updateDisabled user.id user.disabled
    return user

def setDisabled (id : UserId) (disabled : Bool) : AdminService UserEntity := do
  let user ← findUserById id
  match user with
  | none => throw (.notFound "User not found")
  | some user => saveDisabled { user with disabled := disabled }

def disableUser (id : UserId) : AdminService UserEntity := setDisabled id true

def enableUser (id : UserId) : AdminService UserEntity := setDisabled id false

/-! ### Controllers -/

structure UserResponseDTO where
  id : UserId
  email : String
  role : UserRole
  disabled : Bool
  deriving DecidableEq, Repr

def toUserResponseDTO (user : UserEntity) : UserResponseDTO :=
  ⟨user.id, user.email, user.role, user.disabled⟩

/-- `GET /auth/me` and the routes of `AdminUserController`. -/
inductive Route
  | me
  | list
  | disable (id : UserId)
  | enable (id : UserId)
  deriving DecidableEq, Repr

def Route.roles : Route → List UserRole
  | .me => [.user]
  | _ => [.admin]

inductive RouteReply
  | me (userId : UserId) (role : UserRole)
  | users (users : List UserResponseDTO)
  | user (user : UserResponseDTO)
  deriving DecidableEq, Repr

def handle (caller : JwtPayload) : Route → AdminService RouteReply
  | .me => return .me caller.sub caller.role
  | .list => do
    let users ← listUsers
    return .users (users.map toUserResponseDTO)
  | .disable id => do
    let user ← disableUser id
    return .user (toUserResponseDTO user)
  | .enable id => do
    let user ← enableUser id
    return .user (toUserResponseDTO user)

def guarded (V : JwtVerifier C) (authorization : Option String) (route : Route) :
    AdminService RouteReply := do
  let caller ← useGuards V route.roles authorization
  handle caller route

/-! ### The system -/

inductive AccessRequest
  | account (request : AccountRequest)
  | guarded (authorization : Option String) (route : Route)
  deriving DecidableEq, Repr

inductive AccessReply
  | account (r : AccountReply)
  | guarded (r : Except HttpError RouteReply)

def access (B : Bcrypt) (V : JwtVerifier C) : AccessRequest → Prog AuthWorld AuthChoice AccessReply
  | .account request => do
    let r ← account B C request
    return .account r
  | .guarded authorization route => do
    let r ← (guarded V authorization route).run
    return .guarded r

/-- All that registers users, logs them in and administers them; now administrators are users who
have to log in themselves. -/
def accessSystem (B : Bcrypt) (V : JwtVerifier C) (isStrongPassword : String → Bool) :
    System AuthWorld AuthChoice AccessRequest Empty AccessReply where
  body := access B V
  enabled := fun request w =>
    match request with
    | .account request => (accountSystem B C isStrongPassword).enabled request w
    | .guarded _ _ => true
  env := fun e _ => e.elim
  crash := fun _ w => w

abbrev Accesses := Config AuthWorld AuthChoice AccessRequest AccessReply

abbrev AccessMove := Label AuthChoice AccessRequest Empty

end OrderLifecycle.Auth
