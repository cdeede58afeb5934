import Hsm.Auth.Error
import Hsm.Auth.Session
import Hsm.Lib.Dict
import Hsm.Lib.Threads

/-! Namespaces and the clients that have access to them, as threads find and leave them. -/

namespace Hsm.Auth

structure NamespaceMetadata where
  allowedClients : List String
  isRestricted : Bool
  createdAt : Instant
  deriving DecidableEq, Repr

abbrev Namespaces := Dict String NamespaceMetadata

namespace NamespaceMetadata

def unrestricted (now : Instant) : NamespaceMetadata := ⟨[], false, now⟩

def restrictedTo (now : Instant) (clientCn : String) : NamespaceMetadata := ⟨[clientCn], true, now⟩

def allow (clientCn : String) (metadata : NamespaceMetadata) : NamespaceMetadata :=
  { metadata with
    allowedClients := metadata.allowedClients.insert clientCn
    isRestricted := true }

def disallow (clientCn : String) (metadata : NamespaceMetadata) : NamespaceMetadata :=
  { metadata with allowedClients := metadata.allowedClients.filter (· ≠ clientCn) }

end NamespaceMetadata

inductive NamespaceReply where
  | changed (result : Except AuthError Unit)
  | access (allowed : Bool)
  deriving DecidableEq

def Namespaces.hasAccess (namespaces : Namespaces) (identity : ClientIdentity)
    (name : String) : Bool :=
  if identity.namespace_ ≠ name then false
  else
    match namespaces[name]? with
    | some metadata =>
      if !metadata.isRestricted then true
      else metadata.allowedClients.contains identity.commonName
    | none => true

/-- Whether an entry lets the client in, if it is the entry of the client's namespace. -/
def NamespaceMetadata.admits (identity : ClientIdentity) (metadata : NamespaceMetadata) : Bool :=
  !metadata.isRestricted || metadata.allowedClients.contains identity.commonName

def Namespaces.getAccessibleNamespaces (namespaces : Namespaces) (identity : ClientIdentity) :
    List String :=
  let found := (namespaces.toList.filter fun entry =>
    identity.namespace_ = entry.1 && entry.2.admits identity).map Prod.fst
  -- No namespace was found, but the identity has one: it is included.
  if found.isEmpty && identity.namespace_ ≠ "" then [identity.namespace_] else found

def insertNamespace (name : String) (metadata : NamespaceMetadata) :
    Script Namespaces NamespaceReply := do
  Script.atomically fun namespaces : Namespaces => ((), namespaces.insert name metadata)
  return .changed (.ok ())

def createNamespace (now : Instant) (name : String) : Script Namespaces NamespaceReply := do
  let refused ← Script.atomically fun namespaces : Namespaces =>
    (if name = "" then some (AuthError.invalidCertificate "Namespace name cannot be empty")
      else if name ∈ namespaces then some (.internal ("Namespace " ++ name ++ " already exists"))
      else none, namespaces)
  match refused with
  | some error => return .changed (.error error)
  | none => insertNamespace name (.unrestricted now)

def grantAccess (now : Instant) (name clientCn : String) : Script Namespaces NamespaceReply := do
  let found ← Script.atomically fun namespaces : Namespaces =>
    match namespaces[name]? with
    | some metadata => (true, namespaces.insert name (metadata.allow clientCn))
    | none => (false, namespaces)
  match found with
  | true => return .changed (.ok ())
  | false => insertNamespace name (.restrictedTo now clientCn)

def revokeAccess (name clientCn : String) : Script Namespaces NamespaceReply := do
  let result ← Script.atomically fun namespaces : Namespaces =>
    match namespaces[name]? with
    | some metadata => (.ok (), namespaces.insert name (metadata.disallow clientCn))
    | none => (.error (.internal ("Namespace " ++ name ++ " does not exist")), namespaces)
  return .changed result

inductive NamespaceCall where
  | create (now : Instant) (name : String)
  | grant (now : Instant) (name clientCn : String)
  | revoke (name clientCn : String)
  | hasAccess (identity : ClientIdentity) (name : String)
  deriving DecidableEq

def NamespaceCall.program : NamespaceCall → Script Namespaces NamespaceReply
  | .create now name => createNamespace now name
  | .grant now name clientCn => grantAccess now name clientCn
  | .revoke name clientCn => revokeAccess name clientCn
  | .hasAccess identity name => do
    let allowed ← Script.atomically fun namespaces : Namespaces =>
      (namespaces.hasAccess identity name, namespaces)
    return .access allowed

abbrev NamespaceThreads := Threads NamespaceCall Namespaces NamespaceReply

def NamespaceThreads.step (threads : NamespaceThreads) (move : Move NamespaceCall) :
    NamespaceThreads × List (Return NamespaceCall NamespaceReply) :=
  Threads.step (fun _ call => call.program) threads move

end Hsm.Auth
