import Rutilus.App.CenterDispatch
import Rutilus.Domain.User
import Rutilus.Lib.Patterns

/-!
# The routes of a console and who may use them

There are two lists. The router folds one of the two registries, by posture:
templates in which a parameter stands for one segment, each with the handler
kind that decides the method. The authorization table is searched by method and
path, the first entry counts, and a trailing star covers every path with that
beginning. What no entry covers is public: the console has to load before there
is a session.
-/

namespace Rutilus.Web.Routes

open Rutilus.Domain Rutilus.Domain.User Rutilus.Lib

inductive Method where
  | get
  | head
  | post
  | put
  | delete
  | options
  | connect
  | patch
  | trace
  | extension (name : String)
  deriving DecidableEq, Repr

inductive ConsoleScope where
  | edge
  | center
  deriving DecidableEq, Repr

/-! ## The registries -/

inductive EdgeRouteKind where
  | health
  | about
  | endpointInventory
  | overview
  | endpointResources
  | resourceDiagnostics
  | endpointCapabilities
  | credentialInventory
  | createCredential
  | beginEndpointTrust
  | confirmEndpointTrust
  | enrollEndpoint
  | importEndpointsCsv
  | refreshEndpoints
  | auditQuery
  | eventQuery
  | telemetrySeries
  | telemetrySamples
  | createOperation
  | listOperations
  | operationDetail
  | listBatches
  | batchDetail
  | createArtifact
  | listArtifacts
  | appendArtifactChunk
  | finalizeArtifact
  | artifactDetail
  | groupInventory
  | createGroup
  | groupDetail
  | deleteGroup
  | addGroupMember
  | removeGroupMember
  | tagInventory
  | assignTag
  | removeTag
  | login
  | logout
  | bootstrapComplete
  | changePassword
  | me
  | listSessions
  | revokeSession
  | listUsers
  | createUser
  | setUserState
  | assignUserRole
  | setUserPassword
  deriving DecidableEq, Repr

inductive CenterRouteKind where
  | health
  | about
  | auditQuery
  | centerSites
  | registerCenterSite
  | revokeCenterBinding
  | centerEndpoints
  | centerOperations
  | submitCenterOperation
  | login
  | logout
  | bootstrapComplete
  | changePassword
  | me
  | listSessions
  | revokeSession
  | listUsers
  | createUser
  | setUserState
  | assignUserRole
  | setUserPassword
  deriving DecidableEq, Repr

structure Route (Kind : Type) where
  method : Method
  path : String
  kind : Kind
  deriving DecidableEq, Repr

def edgeRoutes : List (Route EdgeRouteKind) :=
  [ ⟨.get, "/api/v1/health", .health⟩,
    ⟨.get, "/api/v1/about", .about⟩,
    ⟨.get, "/api/v1/endpoints", .endpointInventory⟩,
    ⟨.get, "/api/v1/overview", .overview⟩,
    ⟨.get, "/api/v1/endpoints/{endpoint_id}/resources", .endpointResources⟩,
    ⟨.get,
      "/api/v1/endpoints/{endpoint_id}/resources/{resource_id}/diagnostics",
      .resourceDiagnostics⟩,
    ⟨.get,
      "/api/v1/endpoints/{endpoint_id}/capabilities",
      .endpointCapabilities⟩,
    ⟨.get, "/api/v1/credentials", .credentialInventory⟩,
    ⟨.post, "/api/v1/credentials", .createCredential⟩,
    ⟨.post, "/api/v1/endpoints/trust", .beginEndpointTrust⟩,
    ⟨.post, "/api/v1/endpoints/trust/expect", .confirmEndpointTrust⟩,
    ⟨.post, "/api/v1/endpoints", .enrollEndpoint⟩,
    ⟨.post, "/api/v1/endpoints/import", .importEndpointsCsv⟩,
    ⟨.post, "/api/v1/endpoints/refresh", .refreshEndpoints⟩,
    ⟨.get, "/api/v1/audit", .auditQuery⟩,
    ⟨.get, "/api/v1/events", .eventQuery⟩,
    ⟨.get, "/api/v1/telemetry", .telemetrySeries⟩,
    ⟨.get, "/api/v1/telemetry/{series_id}/samples", .telemetrySamples⟩,
    ⟨.post, "/api/v1/operations", .createOperation⟩,
    ⟨.get, "/api/v1/operations", .listOperations⟩,
    ⟨.get, "/api/v1/operations/{operation_id}", .operationDetail⟩,
    ⟨.get, "/api/v1/batches", .listBatches⟩,
    ⟨.get, "/api/v1/batches/{batch_id}", .batchDetail⟩,
    ⟨.post, "/api/v1/artifacts", .createArtifact⟩,
    ⟨.get, "/api/v1/artifacts", .listArtifacts⟩,
    ⟨.post, "/api/v1/artifacts/{artifact_id}/chunks", .appendArtifactChunk⟩,
    ⟨.post, "/api/v1/artifacts/{artifact_id}/finalize", .finalizeArtifact⟩,
    ⟨.get, "/api/v1/artifacts/{artifact_id}", .artifactDetail⟩,
    ⟨.get, "/api/v1/groups", .groupInventory⟩,
    ⟨.post, "/api/v1/groups", .createGroup⟩,
    ⟨.get, "/api/v1/groups/{group_id}", .groupDetail⟩,
    ⟨.delete, "/api/v1/groups/{group_id}", .deleteGroup⟩,
    ⟨.put, "/api/v1/groups/{group_id}/members/{endpoint_id}", .addGroupMember⟩,
    ⟨.delete,
      "/api/v1/groups/{group_id}/members/{endpoint_id}",
      .removeGroupMember⟩,
    ⟨.get, "/api/v1/tags", .tagInventory⟩,
    ⟨.put, "/api/v1/tags", .assignTag⟩,
    ⟨.delete, "/api/v1/endpoints/{endpoint_id}/tags/{tag_name}", .removeTag⟩,
    ⟨.post, "/api/v1/auth/login", .login⟩,
    ⟨.post, "/api/v1/auth/logout", .logout⟩,
    ⟨.post, "/api/v1/auth/bootstrap", .bootstrapComplete⟩,
    ⟨.post, "/api/v1/auth/password", .changePassword⟩,
    ⟨.get, "/api/v1/auth/me", .me⟩,
    ⟨.get, "/api/v1/admin/sessions", .listSessions⟩,
    ⟨.post, "/api/v1/admin/sessions", .revokeSession⟩,
    ⟨.get, "/api/v1/admin/users", .listUsers⟩,
    ⟨.post, "/api/v1/admin/users", .createUser⟩,
    ⟨.post, "/api/v1/admin/users/{principal_id}/state", .setUserState⟩,
    ⟨.post, "/api/v1/admin/users/{principal_id}/role", .assignUserRole⟩,
    ⟨.post, "/api/v1/admin/users/{principal_id}/password", .setUserPassword⟩ ]

def centerRoutes : List (Route CenterRouteKind) :=
  [ ⟨.get, "/api/v1/health", .health⟩,
    ⟨.get, "/api/v1/about", .about⟩,
    ⟨.get, "/api/v1/audit", .auditQuery⟩,
    ⟨.get, "/api/v1/center/sites", .centerSites⟩,
    ⟨.post, "/api/v1/center/bindings", .registerCenterSite⟩,
    ⟨.post, "/api/v1/center/bindings/revoke", .revokeCenterBinding⟩,
    ⟨.get, "/api/v1/center/endpoints", .centerEndpoints⟩,
    ⟨.get, "/api/v1/center/operations", .centerOperations⟩,
    ⟨.post, "/api/v1/center/operations", .submitCenterOperation⟩,
    ⟨.post, "/api/v1/auth/login", .login⟩,
    ⟨.post, "/api/v1/auth/logout", .logout⟩,
    ⟨.post, "/api/v1/auth/bootstrap", .bootstrapComplete⟩,
    ⟨.post, "/api/v1/auth/password", .changePassword⟩,
    ⟨.get, "/api/v1/auth/me", .me⟩,
    ⟨.get, "/api/v1/admin/sessions", .listSessions⟩,
    ⟨.post, "/api/v1/admin/sessions", .revokeSession⟩,
    ⟨.get, "/api/v1/admin/users", .listUsers⟩,
    ⟨.post, "/api/v1/admin/users", .createUser⟩,
    ⟨.post, "/api/v1/admin/users/{principal_id}/state", .setUserState⟩,
    ⟨.post, "/api/v1/admin/users/{principal_id}/role", .assignUserRole⟩,
    ⟨.post, "/api/v1/admin/users/{principal_id}/password", .setUserPassword⟩ ]

/-- The method a handler is wired to. -/
def edgeRoute : EdgeRouteKind → Method
  | .health | .about | .endpointInventory | .overview | .endpointResources
  | .resourceDiagnostics | .endpointCapabilities | .credentialInventory
  | .auditQuery | .eventQuery | .telemetrySeries | .telemetrySamples
  | .listOperations | .operationDetail | .listBatches | .batchDetail
  | .listArtifacts | .artifactDetail | .groupInventory | .groupDetail
  | .tagInventory | .me | .listSessions | .listUsers => .get
  | .createCredential | .beginEndpointTrust | .confirmEndpointTrust
  | .enrollEndpoint | .importEndpointsCsv | .refreshEndpoints
  | .createOperation | .createArtifact | .appendArtifactChunk
  | .finalizeArtifact | .createGroup | .login | .logout | .bootstrapComplete
  | .changePassword | .revokeSession | .createUser | .setUserState
  | .assignUserRole | .setUserPassword => .post
  | .deleteGroup | .removeGroupMember | .removeTag => .delete
  | .addGroupMember | .assignTag => .put

def centerRoute : CenterRouteKind → Method
  | .health | .about | .auditQuery | .centerSites | .centerEndpoints
  | .centerOperations | .me | .listSessions | .listUsers => .get
  | .registerCenterSite | .revokeCenterBinding | .submitCenterOperation
  | .login | .logout | .bootstrapComplete | .changePassword | .revokeSession
  | .createUser | .setUserState | .assignUserRole | .setUserPassword => .post

/-! ## The router -/

inductive RouteKind where
  | edge (kind : EdgeRouteKind)
  | center (kind : CenterRouteKind)
  deriving DecidableEq, Repr

/-- What the router was given: a path and a handler. -/
structure Registered where
  path : String
  kind : RouteKind
  deriving DecidableEq, Repr

def registered : ConsoleScope → List Registered
  | .edge => edgeRoutes.map fun route => ⟨route.path, .edge route.kind⟩
  | .center => centerRoutes.map fun route => ⟨route.path, .center route.kind⟩

def RouteKind.method : RouteKind → Method
  | .edge kind => edgeRoute kind
  | .center kind => centerRoute kind

/-- A handler for GET answers HEAD too. -/
def serves (wired requested : Method) : Bool :=
  requested = wired ∨ wired = .get ∧ requested = .head

/-- Paths are compared byte by byte. -/
def utf8 (text : String) : Bytes := text.toByteArray.data.toList

def slash : UInt8 := 0x2f
def star : UInt8 := 0x2a
def brace : UInt8 := 0x7b

/-- A segment in braces is a parameter. -/
def template (path : String) : Template UInt8 :=
  ((utf8 path).splitOn slash).map fun part =>
    if part.head? = some brace then .parameter else .literal part

def Registered.matches' (route : Registered) (method : Method)
    (path : String) : Bool :=
  serves route.kind.method method &&
    (template route.path).covers slash (utf8 path)

/-- Where several templates match, the router takes one of them. -/
def dispatched (scope : ConsoleScope) (method : Method) (path : String) :
    List RouteKind :=
  ((registered scope).filter fun route => route.matches' method path).map
    Registered.kind

/-! ## The authorization table -/

structure RoleMask where
  bits : UInt8
  deriving DecidableEq, Repr

namespace RoleMask

def administrator : UInt8 := 1
def operator : UInt8 := (1 : UInt8) <<< 1
def viewer : UInt8 := (1 : UInt8) <<< 2

def any : RoleMask := ⟨administrator ||| operator ||| viewer⟩
def administratorOnly : RoleMask := ⟨administrator⟩
def administratorOrOperator : RoleMask := ⟨administrator ||| operator⟩

def bit : Role → UInt8
  | .administrator => administrator
  | .operator => operator
  | .viewer => viewer

def allows (mask : RoleMask) (role : Role) : Bool :=
  mask.bits &&& bit role ≠ 0

end RoleMask

inductive RouteAccess where
  | public'
  | always (roles : RoleMask) (mutation : Bool)
  | guardedOnly (roles : RoleMask) (mutation : Bool)
  deriving DecidableEq, Repr

structure TableRow where
  method : Method
  pattern : String
  access : RouteAccess
  deriving DecidableEq, Repr

def routeTable : List TableRow :=
  [ ⟨.get, "/api/v1/health", .public'⟩,
    ⟨.get, "/api/v1/about", .public'⟩,
    ⟨.post, "/api/v1/auth/login", .public'⟩,
    ⟨.post, "/api/v1/auth/bootstrap", .public'⟩,
    ⟨.get, "/api/v1/auth/me", .public'⟩,
    ⟨.post, "/api/v1/auth/logout", .always .any true⟩,
    ⟨.post, "/api/v1/auth/password", .always .any true⟩,
    ⟨.get, "/api/v1/admin/sessions", .always .administratorOnly false⟩,
    ⟨.post, "/api/v1/admin/sessions", .always .administratorOnly true⟩,
    ⟨.get, "/api/v1/admin/users", .always .administratorOnly false⟩,
    ⟨.post, "/api/v1/admin/users", .always .administratorOnly true⟩,
    ⟨.post, "/api/v1/admin/users*", .always .administratorOnly true⟩,
    ⟨.get, "/api/v1/audit", .guardedOnly .administratorOrOperator false⟩,
    ⟨.get, "/api/v1/operations*", .guardedOnly .any false⟩,
    ⟨.get, "/api/v1/batches*", .guardedOnly .any false⟩,
    ⟨.post, "/api/v1/operations", .guardedOnly .administratorOrOperator true⟩,
    ⟨.get, "/api/v1/artifacts*", .guardedOnly .any false⟩,
    ⟨.post, "/api/v1/artifacts*", .guardedOnly .administratorOrOperator true⟩,
    ⟨.get, "/api/v1/credentials", .guardedOnly .administratorOnly false⟩,
    ⟨.post, "/api/v1/credentials", .guardedOnly .administratorOnly true⟩,
    ⟨.post, "/api/v1/endpoints/trust*", .guardedOnly .administratorOnly true⟩,
    ⟨.post, "/api/v1/endpoints/import", .guardedOnly .administratorOnly true⟩,
    ⟨.post, "/api/v1/endpoints/refresh", .guardedOnly .administratorOnly true⟩,
    ⟨.post, "/api/v1/endpoints", .guardedOnly .administratorOnly true⟩,
    ⟨.get, "/api/v1/endpoints*", .guardedOnly .any false⟩,
    ⟨.delete, "/api/v1/endpoints*", .guardedOnly .administratorOnly true⟩,
    ⟨.get, "/api/v1/groups*", .guardedOnly .any false⟩,
    ⟨.get, "/api/v1/tags", .guardedOnly .any false⟩,
    ⟨.post, "/api/v1/groups", .guardedOnly .administratorOnly true⟩,
    ⟨.put, "/api/v1/groups*", .guardedOnly .administratorOnly true⟩,
    ⟨.delete, "/api/v1/groups*", .guardedOnly .administratorOnly true⟩,
    ⟨.put, "/api/v1/tags", .guardedOnly .administratorOnly true⟩,
    ⟨.get, "/api/v1/events", .guardedOnly .any false⟩,
    ⟨.get, "/api/v1/overview", .guardedOnly .any false⟩,
    ⟨.get, "/api/v1/telemetry*", .guardedOnly .any false⟩,
    ⟨.get, "/api/v1/center*", .guardedOnly .any false⟩,
    ⟨.post, "/api/v1/center/bindings*", .guardedOnly .administratorOnly true⟩,
    ⟨.post, "/api/v1/center/operations",
      .guardedOnly .administratorOrOperator true⟩ ]

/-- The star at the end. A path that is the pattern itself begins with it
too. -/
def asPattern (pattern : String) : Pattern UInt8 :=
  let text := utf8 pattern
  if text.getLast? = some star then ⟨text.dropLast, true⟩ else ⟨text, false⟩

def patternCovers (pattern path : String) : Bool :=
  (asPattern pattern).covers (utf8 path)

def centerSurfacePrefix : String := "/api/v1/center"

/-- Whether an entry is in the table of a console. -/
def TableRow.inScope (row : TableRow) (scope : ConsoleScope) : Bool :=
  !((utf8 centerSurfacePrefix).isPrefixOf (utf8 row.pattern) &&
    scope ≠ .center)

def tableRow (method : Method) (path : String) (scope : ConsoleScope) :
    Option TableRow :=
  routeTable.find? fun row =>
    (row.method = method && row.inScope scope) &&
      patternCovers row.pattern path

def tableEntry (method : Method) (path : String) (scope : ConsoleScope) :
    Option RouteAccess :=
  (tableRow method path scope).map TableRow.access

/-- HEAD is looked up as the GET it stands for. -/
def tableMethod (method : Method) : Method :=
  if method = .head then .get else method

def routeAccess (method : Method) (path : String) (scope : ConsoleScope) :
    RouteAccess :=
  (tableEntry (tableMethod method) path scope).getD .public'

end Rutilus.Web.Routes

/-!
## What a role may see and dispatch

The role and the site of a principal's assignment decide which sites it sees
and which it may dispatch to. A principal without an assignment counts as an
unlimited viewer.
-/

namespace Rutilus.Web.Access

open Rutilus.Domain Rutilus.Domain.User

def viewScopeAllows (role : Option Role) (assignmentSite : Option InstanceId)
    (site : InstanceId) : Bool :=
  match role with
  | some .administrator => true
  | some .operator | some .viewer | none =>
      assignmentSite = none ∨ assignmentSite = some site

def dispatchScopeAllows (role : Option Role)
    (assignmentSite : Option InstanceId) (site : InstanceId) : Bool :=
  role.any fun role =>
    App.CenterDispatch.allowsDispatch role assignmentSite site

/-- The judgment for the assignment a request was authenticated with. -/
def mayView (assignment : Option RoleAssignment) (site : InstanceId) : Bool :=
  viewScopeAllows (assignment.map RoleAssignment.role)
    (assignment.bind RoleAssignment.siteId) site

def mayDispatch (assignment : Option RoleAssignment) (site : InstanceId) :
    Bool :=
  dispatchScopeAllows (assignment.map RoleAssignment.role)
    (assignment.bind RoleAssignment.siteId) site

end Rutilus.Web.Access
