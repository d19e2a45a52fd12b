import Scoopdope.Learning.Entities
import Scoopdope.Server.Http

/-!
# KYC: the service and its provider

`KycService` (`kyc/kyc.service.ts`), with the sessions that its requests open at the provider. A
request that the provider does not answer, or refuses, opens none. The provider reports on a
session under the alias it was opened with.
-/

namespace Scoopdope.Kyc

open Async Database Server Learning

inductive KycDocumentType
  | idCard
  | passport
  | driversLicense
deriving DecidableEq

def KycDocumentType.name : KycDocumentType → String
  | idCard => "id_card"
  | passport => "passport"
  | driversLicense => "drivers_license"

structure Customer where
  stellarPublicKey : String
  status : KycStatus
  /-- The encrypted identifier of a session. -/
  providerId : Option String
  documentData : Option String
  documentType : Option KycDocumentType
  documentUrl : Option String
  selfieUrl : Option String
deriving DecidableEq

abbrev customers : Schema where
  Entity := Unit
  Columns := fun _ => Customer
  Where := fun _ => String
  holds := fun _ stellarPublicKey row => row.data.stellarPublicKey = stellarPublicKey
  conflict := fun _ a b => a.stellarPublicKey = b.stellarPublicKey

/-- A row of `kyc_customers`. -/
abbrev CustomerRow : Type := customers.Row ()

structure SubmitKycDocumentsDto where
  stellarPublicKey : String
  documentType : KycDocumentType
  documentUrl : String
  selfieUrl : Option String
deriving DecidableEq

/-- The body of a request for a session. -/
abbrev SessionRequest : Type := List (String × String)

/-- The `alias` of the session. Of two fields of one name the later one counts. -/
def SessionRequest.aliasName (body : SessionRequest) : String :=
  (List.lookup "alias" body.reverse).getD ""

inductive SessionAnswer
  /-- `data.session_id ?? data.id ?? null`. -/
  | accepted (id : Option String)
  | refused (status : Nat)
  | failed (message : String)
deriving DecidableEq

/-- A session at the provider, with the decisions that it has come to, newest first. -/
structure Session where
  aliasName : String
  id : Option String
  decisions : List String
deriving DecidableEq

structure State where
  customers : customers.Rows ()
  /-- In the order in which they were opened. -/
  sessions : List Session

def State.empty : State where
  customers := .empty
  sessions := []

inductive Op
  | findOne (stellarPublicKey : String)
  | insert (data : Customer)
  | save (row : CustomerRow)
  | openSession (body : SessionRequest)

/-- `insert` and `save` answer with the row, unless nothing was written. -/
abbrev Op.answer : Op → Type
  | .findOne _ => Option CustomerRow
  | .insert _ => Option CustomerRow
  | .save _ => Option CustomerRow
  | .openSession _ => SessionAnswer

abbrev kycInterface : Interface where
  Op := Op
  Answer := Op.answer

structure Env where
  now : Int
  /-- The primary key that the database generates for an insertion. -/
  uuid : String
  /-- `configService.get('kyc.providerApiKey') ?? ''`. -/
  apiKey : String
  /-- What the provider answers. -/
  provider : SessionRequest → SessionAnswer
  encrypt : String → String
  decrypt : String → Option String

def Env.generated (env : Env) : Generated customers where
  now := env.now
  key := fun _ _ => env.uuid

def handle (env : Env) (s : State) : (o : Op) → o.answer × State
  | .findOne stellarPublicKey =>
    (s.customers.findOne (customers.holds () stellarPublicKey), s)
  | .insert data =>
    let (row, rows) := Schema.insert env.generated s.customers data
    (row, { s with customers := rows })
  | .save row =>
    let (row, rows) := Schema.save env.generated s.customers row
    (row, { s with customers := rows })
  | .openSession body =>
    match env.provider body with
    | .accepted id =>
      (.accepted id, { s with sessions := s.sessions ++ [⟨body.aliasName, id, []⟩] })
    | answer => (answer, s)

/-- A method of the service. -/
abbrev Method (A : Type) : Type := Process kycInterface Env HttpException A

def query (o : Op) : Method o.answer := Process.perform (I := kycInterface) o

/-- A customer without a row is inserted. -/
def writeCustomer : Option CustomerRow → Customer → Method (Option CustomerRow)
  | none, data => query (.insert data)
  | some row, data => query (.save { row with data })

/-- `repo.save(customer)`, where `row` is the one that the customer was read from. -/
def saveCustomer (row : Option CustomerRow) (data : Customer) : Method CustomerRow := do
  let saved ← writeCustomer row data
  match saved with
  | none => .fail (.internal "duplicate key value")
  | some saved => pure saved

/-- A customer that `create` makes, with `status: 'pending'`. -/
def newCustomer (stellarPublicKey : String) : Customer where
  stellarPublicKey := stellarPublicKey
  status := .pending
  providerId := none
  documentData := none
  documentType := none
  documentUrl := none
  selfieUrl := none

/-- The customer of a row, or a new one, with `status: 'pending'`. -/
def pendingCustomer (stellarPublicKey : String) : Option CustomerRow → Customer
  | none => newCustomer stellarPublicKey
  | some row => { row.data with status := .pending }

/-- The request to the provider, if it is configured. It does not throw. -/
def submitToProvider (body : SessionRequest) (customer : Customer) : Method Customer := do
  let env ← Process.env
  if env.apiKey = "" then pure customer
  else do
    let answer ← query (.openSession body)
    match answer with
    | .accepted rawProviderId =>
      pure { customer with providerId := (truthy rawProviderId).map env.encrypt }
    | .refused _ => pure customer
    | .failed _ => pure customer

def submitDocuments (dto : SubmitKycDocumentsDto) : Method CustomerRow := do
  let row ← query (.findOne dto.stellarPublicKey)
  let customer : Customer :=
    { pendingCustomer dto.stellarPublicKey row with
      documentType := some dto.documentType
      documentUrl := some dto.documentUrl
      selfieUrl := dto.selfieUrl }
  let body : SessionRequest :=
    [("alias", dto.stellarPublicKey), ("document_type", dto.documentType.name),
      ("document_url", dto.documentUrl)] ++
      (dto.selfieUrl.map fun url => ("selfie_url", url)).toList
  let customer ← submitToProvider body customer
  saveCustomer row customer

def upsertCustomer (stellarPublicKey : String) (fields : List (String × String)) :
    Method CustomerRow := do
  let row ← query (.findOne stellarPublicKey)
  let customer := pendingCustomer stellarPublicKey row
  let customer ← submitToProvider (("alias", stellarPublicKey) :: fields) customer
  saveCustomer row customer

/-- A column as it was before its encryption, or as it is where that fails. -/
def decrypted (env : Env) (column : Option String) : Option String :=
  match truthy column with
  | none => column
  | some text => some ((env.decrypt text).getD text)

def decryptCustomer (env : Env) (customer : Customer) : Customer :=
  { customer with
    providerId := decrypted env customer.providerId
    documentData := decrypted env customer.documentData }

def getStatus (stellarPublicKey : String) : Method Customer := do
  let row ← query (.findOne stellarPublicKey)
  match row with
  | none => pure { newCustomer stellarPublicKey with status := .none }
  | some row => do
    let env ← Process.env
    pure (decryptCustomer env row.data)

structure WebhookPayload where
  aliasName : Option String
  sessionId : Option String
  status : String
deriving DecidableEq

/-- `statusMap[status] ?? 'pending'`, for a status in capitals. -/
def mappedStatus (status : String) : KycStatus :=
  if status = "APPROVED" then .approved
  else if status = "VERIFIED" then .approved
  else if status = "REJECTED" then .rejected
  else if status = "DECLINED" then .rejected
  else .pending

def handleWebhook (toUpperCase : String → String) (payload : WebhookPayload) : Method Unit := do
  match truthy payload.aliasName with
  | none => pure ()
  | some stellarPublicKey => do
    let row ← query (.findOne stellarPublicKey)
    match row with
    | none => pure ()
    | some row => do
      let status := mappedStatus (toUpperCase payload.status)
      let _ ← saveCustomer (some row) { row.data with status }

def isApproved (stellarPublicKey : String) : Method Bool := do
  let row ← query (.findOne stellarPublicKey)
  pure ((row.map fun row => row.data.status) = some .approved)

end Scoopdope.Kyc
