import OrderLifecycle.Auth.TokenService

open Framework

namespace OrderLifecycle.Auth

/-- The UTF-8 bytes of a string. -/
def utf8 (s : String) : List UInt8 := s.toList.flatMap String.utf8EncodeChar

/-- What `bcrypt` hashes of its input. -/
def bcryptKey (password : String) : List UInt8 := (utf8 password).take 72

/-- The `bcrypt` package: a hash from a salt and a key, which shows the salt and has no collisions on
the keys. -/
structure Bcrypt where
  digest : String → List UInt8 → String
  saltOf : String → String
  saltOf_digest : ∀ salt key, key.length ≤ 72 → saltOf (digest salt key) = salt
  digest_injective : ∀ salt key key', key.length ≤ 72 → key'.length ≤ 72 →
    digest salt key = digest salt key' → key = key'

namespace Bcrypt

def hash (B : Bcrypt) (salt password : String) : String := B.digest salt (bcryptKey password)

/-- `bcrypt.compare` hashes again with the salt that the hash shows. -/
def compare (B : Bcrypt) (password hashed : String) : Bool :=
  B.digest (B.saltOf hashed) (bcryptKey password) == hashed

end Bcrypt

/-! ### `RegisterDTO` -/

structure RegisterDTO where
  email : String
  password : String
  deriving DecidableEq, Repr

/-- `@MaxLength(72)` -/
def maxPasswordLength : Nat := 72

/-- `@IsStrongPassword()` and `@MaxLength(72)`, which counts characters. -/
def acceptsPassword (isStrongPassword : String → Bool) (password : String) : Bool :=
  isStrongPassword password && password.length ≤ maxPasswordLength

/-! ### Statements -/

inductive AccountError
  | conflict (message : String)
  | uniqueViolation
  | database
  deriving DecidableEq, Repr

abbrev AccountService (α : Type) := Action AuthWorld AuthChoice AccountError α

/-- `bcrypt.hash`, with a random salt. -/
def hashPassword (B : Bcrypt) (password : String) : AccountService String :=
  stmt fun _ ch w => some (.ok (B.hash ch.bytes password), w)

/-- `save` of a new user, whose email is normalised first (`BeforeInsert`; an empty one, which is
left alone there, is its own normal form) and has to be new. The generated id is not in use. -/
def saveUser (C : Crypto) (email password : String) (role : UserRole) : AccountService UserEntity :=
  stmt fun _ ch w =>
    if ch.fail then some (.error .database, w)
    else if w.users.any fun user => user.id == ch.fresh then none
    else if w.users.any fun user => user.email == C.normalizeEmail email then
      some (.error .uniqueViolation, w)
    else
      let user : UserEntity := ⟨ch.fresh, C.normalizeEmail email, password, role, false⟩
      some (.ok user, { w with users := w.users ++ [user] })

/-- `findOneBy({ email })` -/
def findUser (email : String) : AccountService (Option UserEntity) :=
  stmt fun _ ch w =>
    if ch.fail then some (.error .database, w)
    else some (.ok (w.users.find? fun user => user.email == email), w)

/-! ### `AuthService.register` -/

def register (B : Bcrypt) (C : Crypto) (dto : RegisterDTO) : AccountService UserEntity := do
  let hashedPassword ← hashPassword B dto.password
  tryCatch (saveUser C dto.email hashedPassword .user) fun error =>
    match error with
    | .uniqueViolation => throw (.conflict "Email already registered")
    | error => throw error

/-! ### `create-admin` -/

structure AdminCredentials where
  email : String
  password : String
  deriving DecidableEq, Repr

inductive SeedAdminResult
  | created
  | exists
  deriving DecidableEq, Repr

def seedAdmin (B : Bcrypt) (C : Crypto) (credentials : AdminCredentials) :
    AccountService SeedAdminResult := do
  let email := C.normalizeEmail credentials.email
  let existing ← findUser email
  match existing with
  | some _ => return .exists
  | none => do
    let hashedPassword ← hashPassword B credentials.password
    let _ ← saveUser C email hashedPassword .admin
    return .created

/-! ### The system -/

inductive AccountRequest
  | register (dto : RegisterDTO)
  | seedAdmin (credentials : AdminCredentials)
  | session (request : AuthRequest)
  deriving DecidableEq, Repr

inductive AccountReply
  | registered (r : Except AccountError UserEntity)
  | seeded (r : Except AccountError SeedAdminResult)
  | session (r : Except AuthError TokenPair)

/-- The libraries, with `bcrypt.compare`. -/
def Crypto.withBcrypt (C : Crypto) (B : Bcrypt) : Crypto := { C with compare := B.compare }

def account (B : Bcrypt) (C : Crypto) : AccountRequest → Prog AuthWorld AuthChoice AccountReply
  | .register dto => do
    let r ← (register B C dto).run
    return .registered r
  | .seedAdmin credentials => do
    let r ← (seedAdmin B C credentials).run
    return .seeded r
  | .session request => do
    let r ← (respond (C.withBcrypt B) request).run
    return .session r

/-- Everything that writes `users` or reads it to issue tokens. The validation pipe lets a
registration through or not. -/
def accountSystem (B : Bcrypt) (C : Crypto) (isStrongPassword : String → Bool) :
    System AuthWorld AuthChoice AccountRequest SetDisabled AccountReply where
  body := account B C
  enabled := fun request _ =>
    match request with
    | .register dto => acceptsPassword isStrongPassword dto.password
    | _ => true
  env := (authSystem C).env
  crash := fun _ w => w

abbrev Accounts := Config AuthWorld AuthChoice AccountRequest AccountReply

end OrderLifecycle.Auth
