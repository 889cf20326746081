/-
# TeiidSyndesis.OpenShift.ExposedServices — where the services of a published virtualization lead.

A published virtualization is reached through objects that know each other by strings only: the route
names a service, the service selects pods by their application label and names a port of theirs, and the
status that is shown to the user finds the route by its name, its target and its description.  The objects
of all virtualizations lie in one project, together with what others have put there, and calls that fail
or unpublish leave any part of them.  Whatever part is there, it leads to the pods of its own
virtualization and to no others.

Main results:
* `separated_step`, `separated_of_run` — every object is of one virtualization or of none, in every run;
* `matchRoute_own`, `matchRoute_other`, `matchRoute_foreign` — which routes the status finds;
* `getRoute_odata`, `addRoutes_eq` — so which it shows;
* `endpoints_of_service`, `mem_backends` — where a service leads, and where a host does;
* `shown_host_leads` — the host that is shown is that of the own route, and leads to the own pods only.
-/
import TeiidSyndesis.OpenShift.VirtualizationResources
import TeiidSyndesis.Server.NameValidation

namespace TeiidSyndesis.Server.Names

/-- How a protocol is spelled in the names of objects. -/
def ProtocolType.id : ProtocolType → String
  | .odata => "odata"
  | .sodata => "sodata"
  | .jdbc => "jdbc"
  | .pg => "pg"
  | .jolokia => "jolokia"
  | .prometheus => "prometheus"

end TeiidSyndesis.Server.Names

namespace TeiidSyndesis.OpenShift

open TeiidSyndesis.Library TeiidSyndesis.Model TeiidSyndesis.Server
open TeiidSyndesis.Server.Names (ProtocolType getOdataHost)

/-- `BuildStatus.RouteStatus`, with all its fields -/
structure RouteStatus extends Server.Names.RouteStatus where
  name : String
  path : Option String
  target : String
  port : String
  secure : Bool
  deriving DecidableEq, Repr

/-! ## The objects of a project -/

/-- Labels, as pairs of key and value. -/
abbrev Labels := List (String × String)

namespace Project

/-- A port of a container. -/
structure ContainerPort where
  name : String
  containerPort : Nat
  protocol : String
  deriving DecidableEq, Repr

/-- What a deployment config makes pods from; the container is left out but for its ports. -/
structure PodTemplate where
  name : String
  labels : Labels
  annotations : Labels
  ports : List ContainerPort
  deriving DecidableEq, Repr

/-- A deployment config: its name and the template of its pods. -/
structure DeploymentConfig where
  name : String
  labels : Labels
  selector : Labels
  template : PodTemplate
  deriving DecidableEq, Repr

/-- A pod, as its deployment config has made it. -/
structure Pod where
  name : String
  labels : Labels
  ports : List ContainerPort
  deriving DecidableEq, Repr

/-- A port of a service, by the name of the port it leads to. -/
structure ServicePort where
  name : String
  port : Nat
  targetPort : String
  deriving DecidableEq, Repr

/-- A service: which pods it selects, and its ports. -/
structure Service where
  name : String
  labels : Labels
  annotations : Labels
  sessionAffinity : String
  selector : Labels
  ports : List ServicePort
  deriving DecidableEq, Repr

/-- A route: the service it leads to, and its annotations. -/
structure Route where
  name : String
  labels : Labels
  /-- an object without annotations has no map of them -/
  annotations : Option Labels
  targetPort : String
  toName : String
  tls : Option String
  host : Option String
  path : Option String
  deriving DecidableEq, Repr

end Project

/-- The objects of the kinds a virtualization is reached through. -/
structure Project where
  deploymentConfigs : List Project.DeploymentConfig := []
  pods : List Project.Pod := []
  services : List Project.Service := []
  routes : List Project.Route := []
  deriving DecidableEq, Repr

namespace Project

/-- The description every route of a published virtualization has. -/
def serviceDescription : String := "Virtual Database (VDB)"

/-! ## Creating them -/

/-- A port of the container. -/
def createPort (name : String) (port : Nat) (protocol : String) : ContainerPort :=
  { name := name, containerPort := port, protocol := protocol }

/-- `getDeploymentPorts`: the ports of the container. -/
def getDeploymentPorts (enableOdata : Bool) : List ContainerPort :=
  let ports :=
    [ createPort (ProtocolType.id .prometheus) 9779 "TCP",
      createPort (ProtocolType.id .jolokia) 8778 "TCP",
      createPort (ProtocolType.id .jdbc) 31000 "TCP",
      createPort (ProtocolType.id .pg) 35432 "TCP" ]
  if enableOdata then
    ports ++
      [ createPort (ProtocolType.id .odata) 8080 "TCP", createPort (ProtocolType.id .sodata) 8443 "TCP" ]
  else ports

/-- The deployment config of a publishing. -/
def deploymentConfig (openShiftName : String) (enableOdata : Bool) : DeploymentConfig where
  name := openShiftName
  labels := [("application", openShiftName)]
  selector := [("deploymentConfig", openShiftName)]
  template :=
    { name := openShiftName
      labels :=
        [ ("application", openShiftName), ("deploymentConfig", openShiftName),
          ("syndesis.io/type", "datavirtualization") ]
      annotations := [("prometheus.io/scrape", "true"), ("prometheus.io/port", "9779")]
      ports := getDeploymentPorts enableOdata }

/-- `createOrReplace` -/
def createDeploymentConfig (p : Project) (openShiftName : String) (enableOdata : Bool) : Project :=
  { p with
    deploymentConfigs :=
      p.deploymentConfigs.filter (·.name ≠ openShiftName) ++
        [deploymentConfig openShiftName enableOdata] }

/-- A service of the name that is there stays as it is. -/
def addService (p : Project) (service : Service) : Project :=
  if p.services.any (·.name = service.name) then p
  else { p with services := p.services ++ [service] }

/-- `createService`: the service of one protocol. -/
def createService (p : Project) (openShiftName type : String) (_srcPort exposedPort : Nat) : Project :=
  p.addService
    { name := openShiftName ++ "-" ++ type
      labels := [("application", openShiftName)]
      annotations := [("description", serviceDescription)]
      sessionAffinity := "ClientIP"
      selector := [("application", openShiftName)]
      ports := [{ name := type, port := exposedPort, targetPort := type }] }

/-- `createODataService`, which 3scale may be asked to discover. -/
def createODataService (exposeVia3scale : Bool) (p : Project) (openShiftName type : String)
    (port : Nat) : Project :=
  let discovery (entries : Labels) : Labels := if exposeVia3scale then entries else []
  p.addService
    { name := openShiftName ++ "-" ++ type
      labels := [("application", openShiftName)] ++ discovery [("discovery.3scale.net", "true")]
      annotations :=
        [("description", serviceDescription)] ++
          discovery
            [ ("discovery.3scale.net/scheme", "http"), ("discovery.3scale.net/port", toString port),
              ("discovery.3scale.net/description-path", "/openapi.json") ]
      sessionAffinity := "ClientIP"
      selector := [("application", openShiftName)]
      ports := [{ name := type, port := port, targetPort := type }] }

/-- The route to a service; `host` is what OpenShift makes of its name. -/
def route (host : String → String) (openShiftName type : String) : Route where
  name := openShiftName ++ "-" ++ type
  labels := [("application", openShiftName)]
  annotations := some [("description", serviceDescription)]
  targetPort := type
  toName := openShiftName ++ "-" ++ type
  tls := some "edge"
  host := some (host (openShiftName ++ "-" ++ type))
  path := none

/-- `createRoute`: the route to one service. -/
def createRoute (host : String → String) (p : Project) (openShiftName type : String) : Project :=
  if p.routes.any (·.name = openShiftName ++ "-" ++ type) then p
  else { p with routes := p.routes ++ [route host openShiftName type] }

/-- `createServices`: the services and the route of a virtualization. -/
def createServices (host : String → String) (exposeVia3scale : Bool) (p : Project)
    (openShiftName : String) : Project :=
  let p := createODataService exposeVia3scale p openShiftName (ProtocolType.id .odata) 8080
  let p := p.createService openShiftName (ProtocolType.id .jdbc) 31000 31000
  let p := p.createService openShiftName (ProtocolType.id .pg) 35432 5432
  if exposeVia3scale then p else createRoute host p openShiftName (ProtocolType.id .odata)

/-! ## Finding the route -/

/-- A route that `getRoute` takes; the annotations of one whose name fits are dereferenced. -/
def matchRoute (openShiftName : String) (protocolType : ProtocolType) (route : Route) :
    Except Failure (Option RouteStatus) :=
  if ¬ ("-" ++ protocolType.id).toList <:+ route.name.toList then .ok none
  else
    match route.annotations with
    | none => .error (.nullPointer "annotations")
    | some annotations =>
        if annotations.lookup "description" ≠ some serviceDescription then .ok none
        else if route.toName ≠ openShiftName ++ "-" ++ protocolType.id then .ok none
        else
          .ok
            (some
              { name := route.name
                protocol := protocolType
                host := route.host
                path := route.path
                target := route.toName
                port := route.targetPort
                secure := route.tls.isSome })

/-- The last route that fits. -/
def getRoute (p : Project) (openShiftName : String) (protocolType : ProtocolType) :
    Except Failure (Option RouteStatus) :=
  p.routes.foldlM
    (fun theRoute route => do pure ((← matchRoute openShiftName protocolType route).or theRoute)) none

/-- The routes `getVDBService` adds to the status of a running virtualization; a call that raises a
`KubernetesClientException` is ignored. -/
def addRoutes (p : Project) (openShiftName : String) (fails : ProtocolType → Bool) :
    Except Failure (List RouteStatus) :=
  [ProtocolType.odata, .jdbc, .pg].foldlM
    (fun routes type =>
      if fails type then .ok routes
      else do pure (routes ++ (← p.getRoute openShiftName type).toList))
    []

/-- The host that is shown with a running virtualization of these routes. -/
def shownHost (routes : List RouteStatus) : Option String :=
  getOdataHost { status := "RUNNING", routes := routes.map (·.toRouteStatus) }

/-! ## Where a host leads -/

/-- A service selects the pods that have all its labels. -/
def selects (service : Service) (pod : Pod) : Bool :=
  service.selector.all fun label => pod.labels.lookup label.1 == some label.2

/-- The pods a port of a service leads to, each with its port of the name. -/
def endpoints (p : Project) (service : Service) (port : ServicePort) : List (Pod × ContainerPort) :=
  (p.pods.filter (selects service)).flatMap fun pod =>
    (pod.ports.filter (·.name = port.targetPort)).map (pod, ·)

/-- What answers at a host: each route of the host leads to a port of the service it names. -/
def backends (p : Project) (host : String) : List (Pod × ContainerPort) :=
  (p.routes.filter (·.host = some host)).flatMap fun route =>
    (p.services.filter (·.name = route.toName)).flatMap fun service =>
      (service.ports.filter (·.name = route.targetPort)).flatMap (p.endpoints service)

/-! ## Runs -/

/-- One call of the client for a virtualization, or a step of OpenShift. -/
inductive Label
  | createDeploymentConfig (virtualization : String) (enableOdata : Bool)
  | createODataService (virtualization : String) (exposeVia3scale : Bool)
  | createJdbcService (virtualization : String)
  | createPgService (virtualization : String)
  | createRoute (virtualization : String)
  /-- a pod of the deployment config -/
  | deploy (virtualization podName : String)
  /-- the pod of a build, which inherits the label and declares no port -/
  | build (virtualization podName : String)
  /-- an object is deleted, by an unpublish or by others -/
  | delete (kind : ResourceKind) (name : String)
  deriving DecidableEq, Repr

/-- The virtualization a call is for. -/
def Label.virtualization : Label → Option String
  | .createDeploymentConfig virtualization _ | .createODataService virtualization _
  | .createJdbcService virtualization | .createPgService virtualization | .createRoute virtualization
  | .deploy virtualization _ | .build virtualization _ => some virtualization
  | .delete _ _ => none

/-- An object is deleted, by kind and name. -/
def delete (p : Project) (kind : ResourceKind) (name : String) : Project :=
  match kind with
  | .service => { p with services := p.services.filter (·.name ≠ name) }
  | .route => { p with routes := p.routes.filter (·.name ≠ name) }
  | .deploymentConfig => { p with deploymentConfigs := p.deploymentConfigs.filter (·.name ≠ name) }
  | .pod => { p with pods := p.pods.filter (·.name ≠ name) }
  | _ => p

/-- One call, or a pod that comes or goes. -/
def next (host : String → String) (p : Project) (label : Label) : Option Project :=
  match label with
  | .createDeploymentConfig virtualization enableOdata =>
      some (p.createDeploymentConfig (getOpenShiftName virtualization) enableOdata)
  | .createODataService virtualization exposeVia3scale =>
      some
        (createODataService exposeVia3scale p (getOpenShiftName virtualization)
          (ProtocolType.id .odata) 8080)
  | .createJdbcService virtualization =>
      some (p.createService (getOpenShiftName virtualization) (ProtocolType.id .jdbc) 31000 31000)
  | .createPgService virtualization =>
      some (p.createService (getOpenShiftName virtualization) (ProtocolType.id .pg) 35432 5432)
  | .createRoute virtualization =>
      some (createRoute host p (getOpenShiftName virtualization) (ProtocolType.id .odata))
  | .deploy virtualization podName =>
      (p.deploymentConfigs.find? (·.name = getOpenShiftName virtualization)).map fun dc =>
        { p with
          pods := p.pods ++ [{ name := podName, labels := dc.template.labels, ports := dc.template.ports }] }
  | .build virtualization podName =>
      some
        { p with
          pods := p.pods ++
            [{ name := podName, labels := [("application", getOpenShiftName virtualization)], ports := [] }] }
  | .delete kind name => some (p.delete kind name)

/-- A route of others: where its name ends as that of a service does, it has annotations, and they do not
say that it is one of a virtualization. -/
def ForeignRoute (route : Route) : Prop :=
  ∀ type ∈ ["odata", "jdbc", "pg"], ("-" ++ type).toList <:+ route.name.toList →
    ∃ annotations, route.annotations = some annotations ∧
      annotations.lookup "description" ≠ some serviceDescription

/-- Objects of others: they have no name, no label and no host of a virtualization of the list. -/
structure Foreign (host : String → String) (names : List String) (p : Project) : Prop where
  deploymentConfigs : ∀ dc ∈ p.deploymentConfigs, ∀ v ∈ names, dc.name ≠ getOpenShiftName v
  /-- no pod of others is selected by a service of these virtualizations -/
  pods : ∀ pod ∈ p.pods, ∀ v ∈ names, pod.labels.lookup "application" ≠ some (getOpenShiftName v)
  services : ∀ service ∈ p.services, ∀ v ∈ names, ∀ type ∈ ["odata", "jdbc", "pg"],
    service.name ≠ getOpenShiftName v ++ "-" ++ type
  /-- no route of others is taken for one of theirs -/
  routes : ∀ route ∈ p.routes, ForeignRoute route
  hosts : ∀ route ∈ p.routes, ∀ v ∈ names, route.host ≠ some (host (getOpenShiftName v ++ "-" ++ "odata"))

/-- The project as the calls for the virtualizations of the list and the steps of OpenShift change it. -/
def system (host : String → String) (names : List String) : System Project Label :=
  .ofNext (Foreign host names) (next host)

variable {host : String → String} {names : List String}

/-- What `createServices` does is done by calls of the system, one after another. -/
theorem createServices_eq (host : String → String) (exposeVia3scale : Bool) (p : Project)
    (virtualization : String) :
    createServices host exposeVia3scale p (getOpenShiftName virtualization) =
      System.after (next host) p
        ([.createODataService virtualization exposeVia3scale, .createJdbcService virtualization,
          .createPgService virtualization] ++
          if exposeVia3scale then [] else [.createRoute virtualization]) := by
  cases exposeVia3scale <;> rfl

/-! ## Every object is of one virtualization, or of none -/

/-- The port a service is reached at. -/
def exposedPort (type : String) : Nat :=
  if type = "odata" then 8080 else if type = "jdbc" then 31000 else 5432

/-- A service made for the OpenShift name. -/
structure ServiceOf (openShiftName type : String) (service : Service) : Prop where
  name : service.name = openShiftName ++ "-" ++ type
  selector : service.selector = [("application", openShiftName)]
  ports : service.ports = [{ name := type, port := exposedPort type, targetPort := type }]

/-- A pod with the label of the OpenShift name; it has no other ports than a deployment declares. -/
structure PodOf (openShiftName : String) (pod : Pod) : Prop where
  label : pod.labels.lookup "application" = some openShiftName
  ports : ∀ port ∈ pod.ports, port ∈ getDeploymentPorts true

/-- Every object is of one of the virtualizations, or of none. -/
structure Separated (host : String → String) (names : List String) (p : Project) : Prop where
  /-- each object is of others, or exactly what the calls create -/
  deploymentConfigs : ∀ dc ∈ p.deploymentConfigs, (∀ v ∈ names, dc.name ≠ getOpenShiftName v) ∨
    ∃ v ∈ names, ∃ enableOdata, dc = deploymentConfig (getOpenShiftName v) enableOdata
  pods : ∀ pod ∈ p.pods,
    (∀ v ∈ names, pod.labels.lookup "application" ≠ some (getOpenShiftName v)) ∨
      ∃ v ∈ names, PodOf (getOpenShiftName v) pod
  services : ∀ service ∈ p.services,
    (∀ v ∈ names, ∀ type ∈ ["odata", "jdbc", "pg"],
      service.name ≠ getOpenShiftName v ++ "-" ++ type) ∨
      ∃ v ∈ names, ∃ type ∈ ["odata", "jdbc", "pg"], ServiceOf (getOpenShiftName v) type service
  routes : ∀ r ∈ p.routes,
    (ForeignRoute r ∧ ∀ v ∈ names, r.host ≠ some (host (getOpenShiftName v ++ "-" ++ "odata"))) ∨
      ∃ v ∈ names, r = route host (getOpenShiftName v) "odata"

/-- What others have put into the project is of none. -/
theorem separated_of_foreign {p : Project} (h : Foreign host names p) : Separated host names p where
  deploymentConfigs := fun dc hdc => .inl (h.deploymentConfigs dc hdc)
  pods := fun pod hpod => .inl (h.pods pod hpod)
  services := fun service hservice => .inl (h.services service hservice)
  routes := fun r hr => .inl ⟨h.routes r hr, h.hosts r hr⟩

/-- A subset of the objects is separated as they are. -/
theorem Separated.mono {p q : Project} (h : Separated host names p)
    (hdcs : ∀ dc ∈ q.deploymentConfigs, dc ∈ p.deploymentConfigs) (hpods : ∀ pod ∈ q.pods, pod ∈ p.pods)
    (hservices : ∀ service ∈ q.services, service ∈ p.services) (hroutes : ∀ r ∈ q.routes, r ∈ p.routes) :
    Separated host names q where
  deploymentConfigs := fun dc hdc => h.deploymentConfigs dc (hdcs dc hdc)
  pods := fun pod hpod => h.pods pod (hpods pod hpod)
  services := fun service hservice => h.services service (hservices service hservice)
  routes := fun r hr => h.routes r (hroutes r hr)

/-- A service that is created is of its virtualization. -/
theorem Separated.addService {p : Project} (h : Separated host names p) {v : String} (hv : v ∈ names)
    {type : String} (htype : type ∈ ["odata", "jdbc", "pg"]) {service : Service}
    (hservice : ServiceOf (getOpenShiftName v) type service) :
    Separated host names (p.addService service) := by
  unfold Project.addService
  split
  · exact h
  · refine { h with services := fun other hother => ?_ }
    rcases List.mem_append.mp hother with hold | hnew
    · exact h.services other hold
    · rw [List.mem_singleton.mp hnew]
      exact .inr ⟨v, hv, type, htype, hservice⟩

/-- A pod that is deployed is of the virtualization of its config. -/
theorem Separated.addPod {p : Project} (h : Separated host names p) {pod : Pod}
    (hpod : (∀ v ∈ names, pod.labels.lookup "application" ≠ some (getOpenShiftName v)) ∨
      ∃ v ∈ names, PodOf (getOpenShiftName v) pod) :
    Separated host names { p with pods := p.pods ++ [pod] } := by
  refine { h with pods := fun other hother => ?_ }
  rcases List.mem_append.mp hother with hold | hnew
  · exact h.pods other hold
  · rw [List.mem_singleton.mp hnew]
    exact hpod

/-- The ports of a container are among those with OData enabled. -/
theorem ports_of_deployment (enableOdata : Bool) :
    ∀ port ∈ getDeploymentPorts enableOdata, port ∈ getDeploymentPorts true := by
  cases enableOdata <;> decide

/-- Every call keeps the objects apart. -/
theorem separated_step {p q : Project} {label : Label} (h : Separated host names p)
    (hcall : ∀ v ∈ label.virtualization, v ∈ names) (hnext : next host p label = some q) :
    Separated host names q := by
  cases label with
  | createDeploymentConfig v enableOdata =>
      cases hnext
      refine { h with deploymentConfigs := fun dc hdc => ?_ }
      rcases List.mem_append.mp hdc with hold | hnew
      · exact h.deploymentConfigs dc (List.mem_filter.mp hold).1
      · rw [List.mem_singleton.mp hnew]
        exact .inr ⟨v, hcall v rfl, enableOdata, rfl⟩
  | createODataService v exposeVia3scale =>
      cases hnext
      exact h.addService (hcall v rfl) (by decide) ⟨rfl, rfl, rfl⟩
  | createJdbcService v =>
      cases hnext
      exact h.addService (hcall v rfl) (by decide) ⟨rfl, rfl, rfl⟩
  | createPgService v =>
      cases hnext
      exact h.addService (hcall v rfl) (by decide) ⟨rfl, rfl, rfl⟩
  | createRoute v =>
      cases hnext
      unfold Project.createRoute
      split
      · exact h
      · refine { h with routes := fun r hr => ?_ }
        rcases List.mem_append.mp hr with hold | hnew
        · exact h.routes r hold
        · exact .inr ⟨v, hcall v rfl, List.mem_singleton.mp hnew⟩
  | deploy v podName =>
      obtain ⟨dc, hfound, rfl⟩ := Option.map_eq_some_iff.mp hnext
      have hname : dc.name = getOpenShiftName v := by simpa using List.find?_some hfound
      -- the deployment config of the name is the one of a publishing
      rcases h.deploymentConfigs dc (List.mem_of_find?_eq_some hfound) with hother |
        ⟨w, hw, enableOdata, rfl⟩
      · exact absurd hname (hother v (hcall v rfl))
      · exact h.addPod (.inr ⟨w, hw, rfl, ports_of_deployment enableOdata⟩)
  | build v podName =>
      cases hnext
      exact h.addPod (.inr ⟨v, hcall v rfl, rfl, fun _ hport => (List.not_mem_nil hport).elim⟩)
  | delete kind name =>
      cases hnext
      cases kind with
      | service | route | deploymentConfig | pod =>
          refine h.mono ?_ ?_ ?_ ?_ <;>
            first
              | exact fun _ hmem => hmem
              | exact fun _ hmem => (List.mem_filter.mp hmem).1
      | _ => exact h

/-- In every run from a project that only others have used the objects are apart. -/
theorem separated_of_run {p₀ p : Project} {tr : List (Project × Label)} (hstarted : Foreign host names p₀)
    (hrun : (system host names).Run p₀ tr p)
    (hcalls : ∀ x ∈ tr, ∀ v ∈ x.2.virtualization, v ∈ names) : Separated host names p := by
  have hstep : ∀ q label r, Separated host names q → (∀ v ∈ label.virtualization, v ∈ names) →
      (system host names).step q label r → Separated host names r :=
    fun _ _ _ hq hcall hnext => separated_step hq hcall hnext
  exact hrun.preserves hstep hcalls (separated_of_foreign hstarted)

/-! ## The route that is found -/

/-- What is shown of the route of an OpenShift name. -/
def routeStatus (host : String → String) (openShiftName : String) : RouteStatus where
  name := openShiftName ++ "-" ++ "odata"
  protocol := .odata
  host := some (host (openShiftName ++ "-" ++ "odata"))
  path := none
  target := openShiftName ++ "-" ++ "odata"
  port := "odata"
  secure := true

/-- The names of two services agree only if both parts do. -/
theorem serviceName_inj {a b type type' : String} (ht : type ∈ ["odata", "jdbc", "pg"])
    (ht' : type' ∈ ["odata", "jdbc", "pg"]) (h : a ++ "-" ++ type = b ++ "-" ++ type') :
    a = b ∧ type = type' := by
  obtain rfl := suffixed_inj ht ht' h
  exact ⟨rfl, (String.append_right_inj _).mp h⟩

/-- A route of others is not found. -/
theorem matchRoute_foreign {openShiftName : String} {protocolType : ProtocolType}
    (htype : protocolType.id ∈ ["odata", "jdbc", "pg"]) {r : Route} (h : ForeignRoute r) :
    matchRoute openShiftName protocolType r = .ok none := by
  unfold matchRoute
  by_cases hsuffix : ("-" ++ protocolType.id).toList <:+ r.name.toList
  · obtain ⟨annotations, hannotations, hdescription⟩ := h protocolType.id htype hsuffix
    rw [if_neg (not_not.mpr hsuffix), hannotations]
    exact if_pos hdescription
  · exact if_pos hsuffix

/-- The name of the own route has the suffix of its protocol. -/
theorem suffix_route (openShiftName : String) :
    ("-" ++ ProtocolType.id .odata).toList <:+ (openShiftName ++ "-" ++ "odata").toList := by
  have hname : (openShiftName ++ "-" ++ "odata").toList =
      openShiftName.toList ++ ("-" ++ ProtocolType.id .odata).toList := by
    rw [String.append_assoc]
    exact String.toList_append
  rw [hname]
  exact List.suffix_append _ _

/-- The own route is found. -/
theorem matchRoute_own (openShiftName : String) :
    matchRoute openShiftName .odata (route host openShiftName "odata") =
      .ok (some (routeStatus host openShiftName)) := by
  have hsuffix : ("-" ++ ProtocolType.id .odata).toList <:+
      (route host openShiftName "odata").name.toList := suffix_route openShiftName
  unfold matchRoute
  rw [if_neg (not_not.mpr hsuffix)]
  have hdescription : List.lookup "description" [("description", serviceDescription)] =
      some serviceDescription := rfl
  simp [route, routeStatus, ProtocolType.id, hdescription]

/-- The route of one OpenShift name is none of another's, nor one of another protocol. -/
theorem matchRoute_other {openShiftName other : String} {protocolType : ProtocolType}
    (htype : protocolType.id ∈ ["odata", "jdbc", "pg"])
    (h : other ≠ openShiftName ∨ protocolType.id ≠ "odata") :
    matchRoute openShiftName protocolType (route host other "odata") = .ok none := by
  have hname : other ++ "-" ++ "odata" ≠ openShiftName ++ "-" ++ protocolType.id := by
    intro heq
    obtain ⟨hsame, hid⟩ := serviceName_inj (by decide) htype heq
    rcases h with h | h
    · exact h hsame
    · exact h hid.symm
  unfold matchRoute
  split
  · rfl
  · have hdescription : List.lookup "description" [("description", serviceDescription)] =
        some serviceDescription := rfl
    simp only [route, hdescription, not_true_eq_false, ne_eq, if_false]
    exact if_pos hname

/-- The loop of `getRoute` over routes that fit with one status, or do not fit. -/
theorem foldlM_matchRoute {openShiftName : String} {protocolType : ProtocolType} {status : RouteStatus}
    {routes : List Route}
    (h : ∀ r ∈ routes, matchRoute openShiftName protocolType r = .ok none ∨
      matchRoute openShiftName protocolType r = .ok (some status)) (found : Option RouteStatus) :
    ∃ result,
      routes.foldlM (fun theRoute r => do
          pure ((← matchRoute openShiftName protocolType r).or theRoute)) found =
        (.ok result : Except Failure (Option RouteStatus)) ∧
      (result = some status ∨
        (result = found ∧ ∀ r ∈ routes, matchRoute openShiftName protocolType r = .ok none)) ∧
      (result = found ∨ ∃ r ∈ routes, matchRoute openShiftName protocolType r = .ok (some status)) := by
  -- on the routes; every match found has the same status, so the last one does not matter
  induction routes generalizing found with
  | nil => exact ⟨found, rfl, .inr ⟨rfl, fun _ h => (List.not_mem_nil h).elim⟩, .inl rfl⟩
  | cons r routes ih =>
      rw [List.forall_mem_cons] at h
      rw [List.foldlM_cons]
      rcases h.1 with hr | hr
      · obtain ⟨result, hfold, hresult, hfits⟩ := ih h.2 found
        refine ⟨result, bind_eq_ok.mpr ⟨found, by rw [hr]; rfl, hfold⟩, ?_, ?_⟩
        · refine hresult.imp_right fun ⟨hsame, hnone⟩ => ⟨hsame, ?_⟩
          exact List.forall_mem_cons.mpr ⟨hr, hnone⟩
        · exact hfits.imp_right fun ⟨r', hr', hfit⟩ => ⟨r', List.mem_cons_of_mem _ hr', hfit⟩
      · obtain ⟨result, hfold, hresult, _⟩ := ih h.2 (some status)
        refine ⟨result, bind_eq_ok.mpr ⟨some status, by rw [hr]; rfl, hfold⟩, .inl ?_,
          .inr ⟨r, List.mem_cons_self, hr⟩⟩
        rcases hresult with hresult | ⟨hresult, _⟩
        · exact hresult
        · exact hresult

/-- `getRoute` finds the route of the OpenShift name where it is there, and nothing else. -/
theorem getRoute_odata {p : Project} (h : Separated host names p) (openShiftName : String) :
    p.getRoute openShiftName .odata =
      .ok (if route host openShiftName "odata" ∈ p.routes then some (routeStatus host openShiftName)
        else none) := by
  -- of all routes only the virtualization's own is matched
  have hmatch : ∀ r ∈ p.routes, matchRoute openShiftName .odata r = .ok none ∨
      r = route host openShiftName "odata" := by
    intro r hr
    rcases h.routes r hr with ⟨hforeign, _⟩ | ⟨v, _, rfl⟩
    · exact .inl (matchRoute_foreign (by decide) hforeign)
    · by_cases hsame : getOpenShiftName v = openShiftName
      · exact .inr (by rw [hsame])
      · exact .inl (matchRoute_other (by decide) (.inl hsame))
  have hfits : ∀ r ∈ p.routes, matchRoute openShiftName .odata r = .ok none ∨
      matchRoute openShiftName .odata r = .ok (some (routeStatus host openShiftName)) := by
    intro r hr
    refine (hmatch r hr).imp_right ?_
    rintro rfl
    exact matchRoute_own openShiftName
  obtain ⟨result, hfold, hresult, hfound⟩ := foldlM_matchRoute hfits none
  unfold getRoute
  rw [hfold]
  congr 1
  by_cases hroute : route host openShiftName "odata" ∈ p.routes
  · rw [if_pos hroute]
    rcases hresult with hresult | ⟨_, hnone⟩
    · exact hresult
    · have hown := hnone _ hroute
      rw [matchRoute_own] at hown
      cases hown
  · rw [if_neg hroute]
    rcases hfound with hfound | ⟨r, hr, hfit⟩
    · exact hfound
    · rcases hmatch r hr with hnone | rfl
      · rw [hnone] at hfit
        cases hfit
      · exact absurd hr hroute

/-- No route is made for the other protocols, and none is found. -/
theorem getRoute_other {p : Project} (h : Separated host names p) (openShiftName : String)
    {protocolType : ProtocolType} (htype : protocolType.id ∈ ["odata", "jdbc", "pg"])
    (hother : protocolType.id ≠ "odata") : p.getRoute openShiftName protocolType = .ok none := by
  have hnone : ∀ r ∈ p.routes, matchRoute openShiftName protocolType r = .ok none := by
    intro r hr
    rcases h.routes r hr with ⟨hforeign, _⟩ | ⟨v, _, rfl⟩
    · exact matchRoute_foreign htype hforeign
    · exact matchRoute_other htype (.inr hother)
  have hfits : ∀ r ∈ p.routes, matchRoute openShiftName protocolType r = .ok none ∨
      matchRoute openShiftName protocolType r = .ok (some (routeStatus host openShiftName)) :=
    fun r hr => .inl (hnone r hr)
  obtain ⟨result, hfold, _, hfound⟩ := foldlM_matchRoute hfits none
  unfold getRoute
  rw [hfold]
  rcases hfound with rfl | ⟨r, hr, hfit⟩
  · rfl
  · rw [hnone r hr] at hfit
    cases hfit

/-- The routes that are added to a status: at most the one of the virtualization. -/
theorem addRoutes_eq {p : Project} (h : Separated host names p) (openShiftName : String)
    (fails : ProtocolType → Bool) :
    p.addRoutes openShiftName fails =
      .ok (if fails .odata = false ∧ route host openShiftName "odata" ∈ p.routes then
        [routeStatus host openShiftName] else []) := by
  have hodata := getRoute_odata h openShiftName
  have hjdbc := @getRoute_other host names p h openShiftName .jdbc (by decide) (by decide)
  have hpg := @getRoute_other host names p h openShiftName .pg (by decide) (by decide)
  unfold addRoutes
  simp only [List.foldlM_cons, List.foldlM_nil, hodata, hjdbc, hpg]
  by_cases hroute : route host openShiftName "odata" ∈ p.routes <;>
    cases fails .odata <;> cases fails .jdbc <;> cases fails .pg <;>
      simp [hroute, bind, Except.bind, pure, Except.pure]

/-! ## Where the services lead -/

/-- The port a deployment declares for the protocol. -/
def deploymentPort (type : String) : Nat :=
  if type = "odata" then 8080 else if type = "jdbc" then 31000 else 35432

/-- The ports that a deployment declares have their numbers by their names. -/
theorem port_of_name : ∀ type ∈ ["odata", "jdbc", "pg"], ∀ port ∈ getDeploymentPorts true,
    (port.name = type ↔ port = createPort type (deploymentPort type) "TCP") := by
  decide

/-- What a service of the protocol is to lead to: the pods with the label, at the port they declare. -/
def Answers (p : Project) (openShiftName type : String) (x : Pod × ContainerPort) : Prop :=
  x.1 ∈ p.pods ∧ x.1.labels.lookup "application" = some openShiftName ∧
    x.2 ∈ x.1.ports ∧ x.2 = createPort type (deploymentPort type) "TCP"

/-- A service of a virtualization leads to the ports of its protocol that the pods of the virtualization
declare. -/
theorem endpoints_of_service {p : Project} (h : Separated host names p) {v : String} (hv : v ∈ names)
    {type : String} (htype : type ∈ ["odata", "jdbc", "pg"]) {service : Service}
    (hservice : service ∈ p.services) (hname : service.name = getOpenShiftName v ++ "-" ++ type) :
    service.ports = [{ name := type, port := exposedPort type, targetPort := type }] ∧
      ∀ port ∈ service.ports, ∀ x,
        x ∈ p.endpoints service port ↔ p.Answers (getOpenShiftName v) type x := by
  -- a service of this name is not one of others, so it is one that was created
  obtain ⟨w, hw, type', htype', hof⟩ := (h.services service hservice).resolve_left
    fun hother => hother v hv type htype hname
  obtain ⟨hsame, rfl⟩ := serviceName_inj htype' htype (hof.name.symm.trans hname)
  refine ⟨hof.ports, fun port hport x => ?_⟩
  have hport : port = { name := type', port := exposedPort type', targetPort := type' } := by
    rw [hof.ports] at hport
    exact List.mem_singleton.mp hport
  have hselects : ∀ pod : Pod, selects service pod = true ↔
      pod.labels.lookup "application" = some (getOpenShiftName v) := by
    intro pod
    rw [selects, hof.selector, hsame]
    simp
  have hmem : x ∈ p.endpoints service port ↔
      (x.1 ∈ p.pods ∧ selects service x.1 = true) ∧ x.2 ∈ x.1.ports ∧ x.2.name = type' := by
    rw [hport]
    unfold endpoints
    simp only [List.mem_flatMap, List.mem_map, List.mem_filter, decide_eq_true_eq]
    constructor
    · rintro ⟨pod, hpod, ports, hports, rfl⟩
      exact ⟨hpod, hports⟩
    · rintro ⟨hpod, hports⟩
      exact ⟨x.1, hpod, x.2, hports, rfl⟩
  rw [hmem, hselects]
  unfold Answers
  constructor
  · rintro ⟨⟨hpod, hlabel⟩, hports, hnamed⟩
    obtain ⟨u, _, hpodOf⟩ := (h.pods x.1 hpod).resolve_left fun hother => hother v hv hlabel
    exact ⟨hpod, hlabel, hports, (port_of_name type' htype x.2 (hpodOf.ports x.2 hports)).mp hnamed⟩
  · rintro ⟨hpod, hlabel, hports, hnamed⟩
    exact ⟨⟨hpod, hlabel⟩, hports, by rw [hnamed]; rfl⟩

/-- The host of the route of a virtualization leads where its service of the protocol does. -/
theorem mem_backends (hhost : Function.Injective host) {p : Project} (h : Separated host names p)
    {v : String} (hv : v ∈ names) (hroute : route host (getOpenShiftName v) "odata" ∈ p.routes) (x : Pod × ContainerPort) :
    x ∈ p.backends (host (getOpenShiftName v ++ "-" ++ "odata")) ↔
      (∃ service ∈ p.services, service.name = getOpenShiftName v ++ "-" ++ "odata") ∧
        p.Answers (getOpenShiftName v) "odata" x := by
  unfold backends
  simp only [List.mem_flatMap, List.mem_filter, decide_eq_true_eq]
  constructor
  · rintro ⟨r, ⟨hr, hrhost⟩, service, ⟨hservice, hto⟩, port, ⟨hport, _⟩, hx⟩
    -- the only route of the host is that of the virtualization
    obtain ⟨w, hw, rfl⟩ := (h.routes r hr).resolve_left fun hother => hother.2 v hv hrhost
    have hsame : getOpenShiftName w = getOpenShiftName v :=
      (serviceName_inj (by decide) (by decide) (hhost (Option.some.inj hrhost))).1
    have hname : service.name = getOpenShiftName v ++ "-" ++ "odata" := by
      rw [hto, ← hsame]
      rfl
    have hleads := endpoints_of_service h hv (by decide) hservice hname
    exact ⟨⟨service, hservice, hname⟩, (hleads.2 port hport x).mp hx⟩
  · rintro ⟨⟨service, hservice, hname⟩, hanswers⟩
    have hleads := endpoints_of_service h hv (by decide) hservice hname
    have hport : ({ name := "odata", port := exposedPort "odata", targetPort := "odata" } : ServicePort) ∈
        service.ports := by
      rw [hleads.1]
      exact List.mem_singleton_self _
    exact ⟨route host (getOpenShiftName v) "odata", ⟨hroute, rfl⟩, service, ⟨hservice, hname⟩, _,
      ⟨hport, rfl⟩, (hleads.2 _ hport x).mpr hanswers⟩

/-- In every run, each service of a virtualization leads to its own pods, at the ports they declare for the
protocol.  The host that is shown is that of its own route, which is there, and it leads to these pods too
as long as the odata service is there. -/
theorem shown_host_leads {teiid : Teiid} (hnames : Names teiid names) (hhost : Function.Injective host)
    {p₀ p : Project} {tr : List (Project × Label)} (hstarted : Foreign host names p₀)
    (hrun : (system host names).Run p₀ tr p)
    (hcalls : ∀ x ∈ tr, ∀ v ∈ x.2.virtualization, v ∈ names) {v : String} (hv : v ∈ names)
    (fails : ProtocolType → Bool) :
    (∀ x type, p.Answers (getOpenShiftName v) type x →
        ∀ other ∈ names, other ≠ v → x.1.labels.lookup "application" ≠ some (getOpenShiftName other)) ∧
      (∀ type ∈ ["odata", "jdbc", "pg"], ∀ service ∈ p.services,
        service.name = getOpenShiftName v ++ "-" ++ type →
          service.ports = [{ name := type, port := exposedPort type, targetPort := type }] ∧
            ∀ port ∈ service.ports, ∀ x,
              x ∈ p.endpoints service port ↔ p.Answers (getOpenShiftName v) type x) ∧
      ∃ routes, p.addRoutes (getOpenShiftName v) fails = .ok routes ∧
        ∀ shown, shownHost routes = some shown →
          shown = host (getOpenShiftName v ++ "-" ++ "odata") ∧
            route host (getOpenShiftName v) "odata" ∈ p.routes ∧
            ∀ x, x ∈ p.backends shown ↔
              (∃ service ∈ p.services, service.name = getOpenShiftName v ++ "-" ++ "odata") ∧
                p.Answers (getOpenShiftName v) "odata" x := by
  have hseparated := separated_of_run hstarted hrun hcalls
  refine ⟨?_, fun type htype service hservice hname =>
    endpoints_of_service hseparated hv htype hservice hname, _, addRoutes_eq hseparated _ fails, ?_⟩
  · rintro x type ⟨_, hlabel, _⟩ other hother hne hsame
    exact hne (hnames.getOpenShiftName_inj hother hv (Option.some.inj (hsame.symm.trans hlabel)))
  -- a host is shown only with the own route, when the request for routes succeeds
  · intro shown hshown
    by_cases hroute : fails .odata = false ∧ route host (getOpenShiftName v) "odata" ∈ p.routes
    · rw [if_pos hroute] at hshown
      obtain rfl : host (getOpenShiftName v ++ "-" ++ "odata") = shown := Option.some.inj hshown
      exact ⟨rfl, hroute.2, mem_backends hhost hseparated hv hroute.2⟩
    · rw [if_neg hroute] at hshown
      cases hshown

/-- Two virtualizations are published; the name of one ends as the services of the other do. -/
def exposedCalls : List Label :=
  ["dv", "dv-odata"].flatMap fun name =>
    [ .build name (name ++ "-1-build"), .createDeploymentConfig name true, .deploy name (name ++ "-1"),
      .createODataService name false, .createJdbcService name, .createPgService name, .createRoute name ]

/-- Hosts, as the router gives them. -/
def appHost (name : String) : String := name ++ "-project.apps"

/-- Two virtualizations, the name of the one being that of the other's route. -/
def exposed : Project := System.after (next appHost) {} exposedCalls

theorem shown_host_leads_suffix :
    (∀ x type, exposed.Answers (getOpenShiftName "dv") type x →
        ∀ other ∈ ["dv", "dv-odata"], other ≠ "dv" →
          x.1.labels.lookup "application" ≠ some (getOpenShiftName other)) ∧
      (∀ type ∈ ["odata", "jdbc", "pg"], ∀ service ∈ exposed.services,
        service.name = getOpenShiftName "dv" ++ "-" ++ type →
          service.ports = [{ name := type, port := exposedPort type, targetPort := type }] ∧
            ∀ port ∈ service.ports, ∀ x,
              x ∈ exposed.endpoints service port ↔ exposed.Answers (getOpenShiftName "dv") type x) ∧
      ∃ routes, exposed.addRoutes (getOpenShiftName "dv") (fun _ => false) = .ok routes ∧
        ∀ shown, shownHost routes = some shown →
          shown = appHost (getOpenShiftName "dv" ++ "-" ++ "odata") ∧
            route appHost (getOpenShiftName "dv") "odata" ∈ exposed.routes ∧
            ∀ x, x ∈ exposed.backends shown ↔
              (∃ service ∈ exposed.services, service.name = getOpenShiftName "dv" ++ "-" ++ "odata") ∧
                exposed.Answers (getOpenShiftName "dv") "odata" x := by
  have hnames : Names (Teiid.ascii fun _ => { schema := { name := "dv" } }) ["dv", "dv-odata"] :=
    ⟨by decide, by decide⟩
  have hhost : Function.Injective appHost := fun _ _ h => (String.append_left_inj _).mp h
  have hstarted : Foreign appHost ["dv", "dv-odata"] {} :=
    ⟨List.forall_mem_nil _, List.forall_mem_nil _, List.forall_mem_nil _, List.forall_mem_nil _,
      List.forall_mem_nil _⟩
  have hlabels : ∀ call ∈ exposedCalls, ∀ v ∈ call.virtualization, v ∈ ["dv", "dv-odata"] := by decide
  exact shown_host_leads hnames hhost hstarted
    (System.run_after (Foreign appHost ["dv", "dv-odata"]) (next appHost) {} exposedCalls)
    (fun x hx => hlabels x.2 (System.label_mem_of_mem_stepsOf hx)) (by decide) _

example : (exposed.addRoutes (getOpenShiftName "dv") fun _ => false).toOption.bind shownHost =
    some "dv-dv-odata-project.apps" := by decide

example : (exposed.backends "dv-dv-odata-project.apps").map (·.1.name) = ["dv-1"] := by decide

end Project

end TeiidSyndesis.OpenShift
