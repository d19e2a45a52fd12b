import Scoopdope.Database.Statements
import Scoopdope.Server.Http

/-!
# API keys: the service

`ApiKeysService` (`api-keys/api-keys.service.ts`) with the tables of keys and of the audit log.
`AuditService.log` does not throw. The bytes that a method draws are an argument of it.
-/

namespace Scoopdope.ApiKeys

open Async Database Database.Statements Server

/-- The columns of `api_keys`. -/
structure ApiKey where
  name : String
  description : Option String
  keyHash : String
  isActive : Bool := true
  userId : String
  lastUsedAt : Option Int := none
deriving DecidableEq

inductive AuditAction
  | apiKeyCreated
  | apiKeyRevoked
  | apiKeyRotated
deriving DecidableEq

structure Metadata where
  keyId : String
  name : Option String := none
  forcedByAdmin : Bool := false
deriving DecidableEq

/-- The columns of the audit log. -/
structure AuditLog where
  action : AuditAction
  userId : String
  success : Bool
  metadata : Metadata
deriving DecidableEq

inductive Entity
  | apiKey
  | auditLog
deriving DecidableEq

abbrev Entity.Columns : Entity → Type
  | apiKey => ApiKey
  | auditLog => AuditLog

/-- The conditions of the lookups. -/
inductive KeyWhere
  | id (id : String)
  | idAndUser (id userId : String)
  | user (userId : String)

def KeyWhere.holds : KeyWhere → Stored ApiKey → Bool
  | .id keyId, row => row.id = keyId
  | .idAndUser keyId userId, row => row.id = keyId ∧ row.data.userId = userId
  | .user userId, row => row.data.userId = userId

/-- `{ id }`, and `userId` if there is one. -/
def condition (id : String) (userId : Option String) : KeyWhere :=
  match truthy userId with
  | some userId => .idAndUser id userId
  | none => .id id

/-- `keyHash` is unique. -/
abbrev schema : Schema where
  Entity := Entity
  Columns := Entity.Columns
  Where
    | .apiKey => KeyWhere
    | .auditLog => Unit
  holds
    | .apiKey => KeyWhere.holds
    | .auditLog => fun _ _ => true
  conflict
    | .apiKey => fun a b => a.keyHash = b.keyHash
    | .auditLog => fun _ _ => false

abbrev apiKeyRepo : schema.Entity := Entity.apiKey

abbrev auditRepo : schema.Entity := Entity.auditLog

abbrev KeyRow : Type := schema.Row apiKeyRepo

/-- A method of the service. -/
abbrev Method (A : Type) : Type := Statements.Method schema HttpException A

def isHexDigit (c : Char) : Bool := c.isDigit || ('a' ≤ c && c ≤ 'f')

/-- `crypto.randomBytes(n).toString('hex')`, for 32 and for 16 bytes. -/
structure Drawn where
  bytes32 : String
  bytes16 : String
  hex : bytes16.toList.all isHexDigit = true

/-- The answer to a new key. -/
structure IssuedKey where
  id : String
  name : String
  apiKey : String
  warning : String := "Store this API key securely. It will not be shown again."
deriving DecidableEq

structure MaskedKey where
  id : String
  name : String
  description : Option String
  maskedKey : String
  isActive : Bool
  createdAt : Int
  lastUsedAt : Option Int
deriving DecidableEq

structure UpdateApiKeyDto where
  name : Option String
  description : Option String
deriving DecidableEq

/-- `AuditService.log`. -/
def auditLog (action : AuditAction) (userId : String) (success : Bool) (metadata : Metadata) :
    Method Unit :=
  Process.tryCatch
    (do
      let _ ← saveNew auditRepo { action, userId, success, metadata }
      pure ())
    fun _ => pure ()

section Service

variable (crypto : Crypto)

def decryptApiKey (key : KeyRow) : KeyRow :=
  match truthy key.data.description with
  | none => key
  | some description =>
    match EncryptionService.decrypt crypto description with
    | .ok decrypted => { key with data := { key.data with description := some decrypted } }
    | .error _ => key

def findByUser (userId : String) : Method (List KeyRow) := do
  let keys ← find apiKeyRepo (.user userId)
  pure ((keys.mergeSort fun a b => b.createdAt ≤ a.createdAt).map (decryptApiKey crypto))

def findById (id : String) (userId : Option String) : Method KeyRow := do
  let key ← findOne apiKeyRepo (condition id userId)
  match key with
  | some key => pure (decryptApiKey crypto key)
  | none => .fail (.notFound "API key not found")

/-- `description ? encrypt(description) : null`. -/
def encryptDescription (drawn : Drawn) (description : Option String) : Option String :=
  (truthy description).map (EncryptionService.encrypt crypto drawn.bytes16)

def rawKey (drawn : Drawn) : String := "bst_" ++ drawn.bytes32

def create (drawn : Drawn) (userId name : String) (description : Option String) :
    Method IssuedKey := do
  let hash := crypto.sha256 (rawKey drawn)
  let key ← saveNew apiKeyRepo
    { name, description := encryptDescription crypto drawn description, keyHash := hash, userId
      isActive := true }
  auditLog .apiKeyCreated userId true { keyId := key.id, name := some name }
  pure { id := key.id, name := key.data.name, apiKey := rawKey drawn }

def maskKey (key : KeyRow) : MaskedKey :=
  let start := (key.data.keyHash.take 8).toString
  let decrypted := decryptApiKey crypto key
  { id := decrypted.id
    name := decrypted.data.name
    description := truthy decrypted.data.description
    maskedKey := "bst_" ++ start ++ "..."
    isActive := decrypted.data.isActive
    createdAt := decrypted.createdAt
    lastUsedAt := decrypted.data.lastUsedAt }

/-- The columns that an update sets. -/
def updated (drawn : Drawn) (data : UpdateApiKeyDto) (key : ApiKey) : ApiKey :=
  { key with
    name := data.name.getD key.name
    description :=
      match data.description with
      | some description => encryptDescription crypto drawn (some description)
      | none => key.description }

def update (drawn : Drawn) (id userId : String) (data : UpdateApiKeyDto) : Method MaskedKey := do
  let key ← findById crypto id (some userId)
  let key ← save apiKeyRepo { key with data := updated crypto drawn data key.data }
  pure (maskKey crypto key)

def revoke (id userId : String) : Method String := do
  let key ← findById crypto id (some userId)
  if key.data.isActive = false then .fail (.conflict "API key is already revoked")
  else do
    let key ← save apiKeyRepo { key with data := { key.data with isActive := false } }
    auditLog .apiKeyRevoked userId true { keyId := id, name := some key.data.name }
    pure "API key revoked successfully"

def rotate (drawn : Drawn) (id userId : String) : Method IssuedKey := do
  let key ← findById crypto id (some userId)
  if key.data.isActive = false then .fail (.conflict "Cannot rotate a revoked API key")
  else do
    let hash := crypto.sha256 (rawKey drawn)
    let key ← save apiKeyRepo
      { key with data := { key.data with keyHash := hash, lastUsedAt := none } }
    auditLog .apiKeyRotated userId true { keyId := id }
    pure { id := key.id, name := key.data.name, apiKey := rawKey drawn }

def adminForceRevoke (id : String) : Method String := do
  let key ← findById crypto id none
  if key.data.isActive = false then .fail (.conflict "API key is already revoked")
  else do
    let key ← save apiKeyRepo { key with data := { key.data with isActive := false } }
    auditLog .apiKeyRevoked key.data.userId true
      { keyId := id, name := some key.data.name, forcedByAdmin := true }
    pure "API key revoked by admin"

end Service

end Scoopdope.ApiKeys
