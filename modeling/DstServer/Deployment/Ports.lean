import DstServer.Deployment.Unit
import DstServer.Lib.Allot

/-!
# The host ports of a room

`reserve` gives each endpoint of a room a host port under the lock of the
host.  It reads which ports other rooms publish and which ones this room
already has, and then makes one pass over the endpoints: an endpoint with an
explicit request, or else one with a port from before, gets that port, and
any other takes the next free port of the pool.

`reserve_allots` says what a reservation that succeeds gives, and
`reserve_law` when one that could be met fails.
-/

namespace DstServer.Deployment

open Lib

/-! ## Endpoints -/

structure Endpoint where
  shard : String
  container : Port
  game : Bool
  deriving DecidableEq

/-- The two ports of a shard, with the ports in use before it. -/
def endpoint (masterPort : Nat) (shard : String) (value : Json) (used : List Port)
    (field : String × Bool) : Outcome String Endpoint := do
  let number ← Outcome.orError ((value.get "settings").get field.1).asU64? "missing shard UDP port"
  let container ← Outcome.orError (if h : number < 65536 then some ⟨number, h⟩ else none)
    "out of range integral type conversion attempted"
  Outcome.ensure (1024 ≤ container ∧ container.val ≠ masterPort ∧ container ∉ used)
    "conflicting container UDP port"
  pure { shard, container, game := field.2 }

/-- The loop over the shards, with the endpoints of earlier ones. -/
def collectEndpoints (masterPort : Nat) (result : List Endpoint) :
    List (String × Json) → Outcome String (List Endpoint)
  | [] => pure result
  | (shard, value) :: rest => do
    let used := result.map Endpoint.container
    let server ← endpoint masterPort shard value used ("server_port", true)
    let query ← endpoint masterPort shard value (server.container :: used)
      ("master_server_port", false)
    collectEndpoints masterPort (result ++ [server, query]) rest

/-- The endpoints of a resolved configuration. -/
def endpoints (resolved : Json) : Outcome String (List Endpoint) := do
  let shards ← Outcome.orError (resolved.get "shards").asObject? "missing shards"
  let masterPort ← Outcome.orError ((resolved.get "settings").get "master_port").asU64?
    "missing internal master port"
  let result ← collectEndpoints masterPort [] shards
  Outcome.ensure (result ≠ []) "room requires at least one shard"
  pure result

/-! ## Ports that are already published -/

/-- A unit file of the host, with its drop-ins in their order. -/
structure QuadletFile where
  name : Text
  source : Text
  dropins : List Text := []

/-- The ports from `first` to `last`. -/
def portRange (first last : Port) : List Port :=
  (List.range' first (last + 1 - first)).filterMap fun n => if h : n < 65536 then some ⟨n, h⟩ else none

def existingUdpPorts (value : Text) : Outcome String (List Port) :=
  match "/udp".toList.isSuffixOf? value with
  | none => pure []
  | some ports => do
    let host ← Outcome.orError (ports.splitOn ':').reverse[1]?
      "cannot determine existing Quadlet UDP host port"
    let (first, last) := (Text.splitOnce (· = '-') host).getD (host, host)
    let first ← Outcome.orError (parsePort first) "invalid existing UDP host port"
    let last ← Outcome.orError (parsePort last) "invalid existing UDP host port range"
    Outcome.ensure (0 < first ∧ first ≤ last) "invalid existing UDP host port range"
    pure (portRange first last)

/-- The loop over the values of `PublishPort`; an empty one clears the list. -/
def collectUsed (used : List Port) : List Text → Outcome String (List Port)
  | [] => pure used
  | value :: rest =>
    if value = [] then collectUsed [] rest
    else do
      let value ← if value.head? = some '"' then unquote value else pure value
      let ports ← existingUdpPorts value
      collectUsed (used ++ ports) rest

/-- The values of `PublishPort` in a file. -/
def publishedValues (source : Text) : Outcome String (List Text) := do
  let source ← readRegular source
  let fields ← parseSections source
  pure (fields.all "Container" "PublishPort")

/-- `dst-NNN.container` -/
def currentName (room : Nat) : Text :=
  let digits := Text.decimal room
  "dst-".toList ++ List.replicate (3 - digits.length) '0' ++ digits ++ ".container".toList

/-- What is known of the ports: those that other rooms publish, and the
host port of each container port of this room. -/
structure Published where
  occupied : List Port := []
  old : OrderedMap Port Port := .empty

/-- The drop-ins of the room may not publish ports. -/
def checkDropin (source : Text) : Outcome String Unit := do
  let values ← publishedValues source
  Outcome.ensure (values = []) "drop-in overrides managed ports"

/-- `extend` with the ports of the room. -/
def extendOld (old : OrderedMap Port Port) (ports : List PortMapping) : OrderedMap Port Port :=
  ports.foldl (fun old mapping => old.insert mapping.container mapping.host) old

/-- The loop over the unit files. -/
def scan (lib : Libraries) (current : Text) (published : Published) :
    List QuadletFile → Outcome String Published
  | [] => pure published
  | file :: rest =>
    match ".container".toList.isSuffixOf? file.name with
    | none | some [] => scan lib current published rest
    | some _ =>
      if file.name = current then do
        let unit ← ContainerUnit.load lib file.name file.source
        file.dropins.forM checkDropin
        scan lib current { published with old := extendOld published.old unit.options.ports } rest
      else do
        let ports ← publishedValues file.source
        let dropins ← file.dropins.mapM' publishedValues
        let used ← collectUsed [] (ports ++ dropins.flatten)
        scan lib current { published with occupied := published.occupied ++ used } rest

/-! ## The pass -/

/-- The loop over the explicit mappings. -/
def collectExplicit (containers : List Port) (explicit : OrderedMap Port Port) :
    List PortMapping → Outcome String (OrderedMap Port Port)
  | [] => pure explicit
  | mapping :: rest => do
    mapping.validate
    Outcome.ensure (mapping.protocol = .udp ∧ mapping.container ∈ containers)
      "explicit mapping must refer to a shard game or query port"
    Outcome.ensure (explicit.get? mapping.container = none) "duplicate explicit container port"
    collectExplicit containers (explicit.insert mapping.container mapping.host) rest

/-- What the pass reads. -/
structure Reading where
  explicit : OrderedMap Port Port
  old : OrderedMap Port Port
  /-- `udp_available` -/
  udpAvailable : Port → Bool

/-- The port that an endpoint is to have. -/
def Reading.selected (reading : Reading) (endpoint : Endpoint) : Option Port :=
  (reading.explicit.get? endpoint.container).or (reading.old.get? endpoint.container)

/-- A port that this room owns or that nobody has bound. -/
def Reading.free (reading : Reading) (host : Port) : Bool :=
  host ∈ reading.old.values || reading.udpAvailable host

def assign (reading : Reading) (occupied available : List Port) :
    List Endpoint → Outcome String (List PortMapping)
  | [] => pure []
  | endpoint :: rest =>
    match reading.selected endpoint with
    | some host => do
      Outcome.ensure (host ∉ occupied) s!"UDP host port {host} is allocated to another endpoint"
      Outcome.ensure (reading.free host = true) s!"UDP host port {host} is already in use"
      let mappings ← assign reading (host :: occupied) available rest
      pure ({ host, container := endpoint.container } :: mappings)
    | none => do
      let (host, available) ← Outcome.orError (nextFree reading.free occupied available)
        "UDP port pool is exhausted"
      let mappings ← assign reading (host :: occupied) available rest
      pure ({ host, container := endpoint.container } :: mappings)

/-- The arguments of `reserve` and the state of the host. -/
structure Reservation where
  quadlets : List QuadletFile
  room : Nat
  /-- `configuration.resolved()` -/
  resolved : Json
  requested : List PortMapping
  poolStart : Port
  poolEnd : Port
  udpAvailable : Port → Bool

/-- What `reserve` has found out before the pass. -/
structure Prepared where
  endpoints : List Endpoint
  occupied : List Port
  reading : Reading

def Reservation.prepare (lib : Libraries) (reservation : Reservation) :
    Outcome String Prepared := do
  Outcome.ensure (1024 ≤ reservation.poolStart ∧ reservation.poolStart ≤ reservation.poolEnd)
    "invalid UDP port pool"
  let published ← scan lib (currentName reservation.room) {} reservation.quadlets
  let endpoints ← endpoints reservation.resolved
  let explicit ← collectExplicit (endpoints.map Endpoint.container) .empty reservation.requested
  pure {
    endpoints, occupied := published.occupied
    reading := { explicit, old := published.old, udpAvailable := reservation.udpAvailable } }

/-- The ports of the pool. -/
def Reservation.pool (reservation : Reservation) : List Port :=
  portRange reservation.poolStart reservation.poolEnd

def Reservation.reserve (lib : Libraries) (reservation : Reservation) :
    Outcome String (List PortMapping) := do
  let prepared ← reservation.prepare lib
  assign prepared.reading prepared.occupied reservation.pool prepared.endpoints

/-! ## The pass is an allotment -/

/-- The mapping of an endpoint. -/
def Endpoint.mapping (endpoint : Endpoint) (host : Port) : PortMapping :=
  { host, container := endpoint.container }

theorem assign_toOption (reading : Reading) (endpoints : List Endpoint)
    (occupied available : List Port) :
    (assign reading occupied available endpoints).toOption =
      (allot reading.free occupied available (endpoints.map reading.selected)).map
        (List.zipWith Endpoint.mapping endpoints) := by
  have hbind : ∀ {x : Outcome String (List PortMapping)} {mapping : PortMapping},
      (x >>= fun mappings => pure (mapping :: mappings)).toOption =
        x.toOption.map (mapping :: ·) := by
    intro x mapping
    cases x <;> rfl
  have hzip : ∀ (endpoint : Endpoint) (rest : List Endpoint) (host : Port),
      List.zipWith Endpoint.mapping (endpoint :: rest) ∘ (host :: ·) =
        (endpoint.mapping host :: ·) ∘ List.zipWith Endpoint.mapping rest := fun _ _ _ => rfl
  induction endpoints generalizing occupied available with
  | nil => rfl
  | cons endpoint rest ih =>
    rw [assign, List.map_cons]
    cases hselected : reading.selected endpoint with
    | some host =>
      rw [allot]
      dsimp only
      by_cases hoccupied : host ∉ occupied
      · rw [Outcome.ensure_of hoccupied, Outcome.ok_bind]
        by_cases hfree : reading.free host = true
        · rw [Outcome.ensure_of hfree, Outcome.ok_bind, hbind, ih, if_pos ⟨hfree, hoccupied⟩,
            Option.map_map, Option.map_map, hzip]
          rfl
        · rw [if_neg fun h => hfree h.1, Outcome.ensure_of_not hfree]
          rfl
      · rw [if_neg fun h => hoccupied h.2, Outcome.ensure_of_not hoccupied]
        rfl
    | none =>
      rw [allot]
      cases hnext : nextFree reading.free occupied available with
      | none => rfl
      | some next =>
        obtain ⟨host, available'⟩ := next
        simp only [Outcome.orError, Outcome.ok_bind, Option.bind_some]
        rw [hbind, ih, Option.map_map, Option.map_map, hzip]
        rfl

theorem nodup_portRange (first last : Port) : (portRange first last).Nodup := by
  refine List.Nodup.filterMap ?_ List.nodup_range'
  intro a b port ha hb
  simp only [Option.mem_def, Option.dite_none_right_eq_some, Option.some.injEq] at ha hb
  obtain ⟨_, rfl⟩ := ha
  obtain ⟨_, hb⟩ := hb
  exact (congrArg Fin.val hb).symm

/-! ## Reservations -/

/-- What the endpoints ask for. -/
def Prepared.requests (prepared : Prepared) : List (Option Port) :=
  prepared.endpoints.map prepared.reading.selected

/-- Every endpoint has one host port, the ports are distinct and apart from
those of other rooms, and an endpoint with an explicit request, or else with
a port from before, has that one. -/
structure Allotted (prepared : Prepared) (mappings : List PortMapping) : Prop where
  endpoints : mappings.map PortMapping.container = prepared.endpoints.map Endpoint.container
  protocol : ∀ mapping ∈ mappings, mapping.protocol = .udp
  distinct : (mappings.map PortMapping.host).Nodup
  apart : ∀ mapping ∈ mappings, mapping.host ∉ prepared.occupied
  explicit : ∀ mapping ∈ mappings, ∀ host,
    prepared.reading.explicit.get? mapping.container = some host → mapping.host = host
  owned : ∀ mapping ∈ mappings, ∀ host,
    prepared.reading.explicit.get? mapping.container = none →
      prepared.reading.old.get? mapping.container = some host → mapping.host = host

theorem allotted_of_allot {prepared : Prepared} {pool hosts : List Port}
    (h : allot prepared.reading.free prepared.occupied pool prepared.requests = some hosts) :
    Allotted prepared (List.zipWith Endpoint.mapping prepared.endpoints hosts) := by
  obtain ⟨hnodup, hfree, hserved⟩ := allot_sound h
  obtain ⟨hlength, hserved⟩ := List.forall₂_iff_zip.1 hserved
  have hlength : prepared.endpoints.length = hosts.length := by
    simpa [Prepared.requests] using hlength
  have hcontainers : (List.zipWith Endpoint.mapping prepared.endpoints hosts).map
      PortMapping.container = prepared.endpoints.map Endpoint.container := by
    refine List.ext_getElem (by simp [hlength]) fun i _ _ => ?_
    simp [Endpoint.mapping]
  have hhosts : (List.zipWith Endpoint.mapping prepared.endpoints hosts).map PortMapping.host =
      hosts := by
    refine List.ext_getElem (by simp [hlength]) fun i _ _ => ?_
    simp [Endpoint.mapping]
  -- a mapping comes from an endpoint and the host port that serves its request
  have hmapping : ∀ mapping ∈ List.zipWith Endpoint.mapping prepared.endpoints hosts,
      ∃ endpoint host, mapping = endpoint.mapping host ∧ host ∈ hosts ∧
        ∀ d, prepared.reading.selected endpoint = some d → host = d := by
    intro mapping hmem
    rw [← List.map_uncurry_zip_eq_zipWith, List.mem_map] at hmem
    obtain ⟨⟨endpoint, host⟩, hzip, rfl⟩ := hmem
    refine ⟨endpoint, host, rfl, (List.of_mem_zip hzip).2, hserved ?_⟩
    rw [Prepared.requests, List.zip_map_left]
    exact List.mem_map.2 ⟨(endpoint, host), hzip, rfl⟩
  refine ⟨hcontainers, ?_, by rw [hhosts]; exact hnodup, ?_, ?_, ?_⟩
  · intro mapping hmem
    obtain ⟨endpoint, host, rfl, _⟩ := hmapping mapping hmem
    rfl
  · intro mapping hmem
    obtain ⟨endpoint, host, rfl, hhost, _⟩ := hmapping mapping hmem
    exact (hfree host hhost).2
  · intro mapping hmem d hd
    obtain ⟨endpoint, host, rfl, _, hselected⟩ := hmapping mapping hmem
    exact hselected d (by rw [Reading.selected, show prepared.reading.explicit.get?
      endpoint.container = some d from hd, Option.some_or])
  · intro mapping hmem d hnone hd
    obtain ⟨endpoint, host, rfl, _, hselected⟩ := hmapping mapping hmem
    exact hselected d (by rw [Reading.selected, show prepared.reading.explicit.get?
      endpoint.container = none from hnone, Option.none_or]; exact hd)

theorem reserve_toOption {lib : Libraries} {reservation : Reservation} {prepared : Prepared}
    (h : reservation.prepare lib = .ok prepared) :
    (reservation.reserve lib).toOption =
      (allot prepared.reading.free prepared.occupied reservation.pool prepared.requests).map
        (List.zipWith Endpoint.mapping prepared.endpoints) := by
  rw [Reservation.reserve, h, Outcome.ok_bind, assign_toOption]
  rfl

/-- What a reservation is for: it succeeds only with an allotment, and it
succeeds when the ports that the endpoints are to have are distinct and free
and the pool has enough others. -/
structure Reserves (lib : Libraries) (reservation : Reservation) : Prop where
  allots : ∀ mappings, reservation.reserve lib = .ok mappings →
    ∃ prepared, reservation.prepare lib = .ok prepared ∧ Allotted prepared mappings
  complete : ∀ prepared, reservation.prepare lib = .ok prepared →
    Feasible prepared.reading.free prepared.occupied reservation.pool prepared.requests →
      (reservation.reserve lib).Succeeds

theorem reserve_allots {lib : Libraries} {reservation : Reservation} {mappings : List PortMapping}
    (h : reservation.reserve lib = .ok mappings) :
    ∃ prepared, reservation.prepare lib = .ok prepared ∧ Allotted prepared mappings := by
  obtain ⟨prepared, hprepare, _⟩ := Outcome.bind_eq_ok.1 h
  have hreserve := reserve_toOption hprepare
  rw [h] at hreserve
  obtain ⟨hosts, hallot, rfl⟩ := Option.map_eq_some_iff.1 hreserve.symm
  exact ⟨prepared, hprepare, allotted_of_allot hallot⟩

/-- Of the reservations that could be met, the pass makes those in which no endpoint is starved. -/
theorem reserve_succeeds_iff {lib : Libraries} {reservation : Reservation} {prepared : Prepared}
    (hprepare : reservation.prepare lib = .ok prepared)
    (hfeasible : Feasible prepared.reading.free prepared.occupied reservation.pool prepared.requests) :
    (reservation.reserve lib).Succeeds ↔
      ¬Starved prepared.reading.free prepared.occupied reservation.pool prepared.requests := by
  have hpool : reservation.pool.Nodup := nodup_portRange _ _
  rw [← allot_isSome_iff hpool hfeasible, ← Outcome.isSome_toOption, reserve_toOption hprepare,
    Option.isSome_map]

/-- Of the reservations that could be met, the pass fails those with an
endpoint whose port an earlier endpoint has taken from the pool. -/
theorem reserve_law (lib : Libraries) (reservation : Reservation) :
    Reserves lib reservation ↔
      ∀ prepared, reservation.prepare lib = .ok prepared →
        Feasible prepared.reading.free prepared.occupied reservation.pool prepared.requests →
          ¬Starved prepared.reading.free prepared.occupied reservation.pool prepared.requests := by
  constructor
  · intro h prepared hprepare hfeasible
    exact (reserve_succeeds_iff hprepare hfeasible).1 (h.complete prepared hprepare hfeasible)
  · intro h
    refine ⟨fun mappings => reserve_allots, fun prepared hprepare hfeasible => ?_⟩
    exact (reserve_succeeds_iff hprepare hfeasible).2 (h prepared hprepare hfeasible)

/-- One shard, whose query port is to be the first port of the pool. -/
def sampleReservation : Reservation where
  quadlets := []
  room := 0
  resolved := .object [
    ("settings", .object [("master_port", .ofNat 10888)]),
    ("shards", .object [("Master", .object [("settings", .object [
      ("master_server_port", .ofNat 27016), ("server_port", .ofNat 10999)])])])]
  requested := [⟨30000, 27016, .udp⟩]
  poolStart := 30000
  poolEnd := 30001
  udpAvailable := fun _ => true

/-- The game port comes first and takes the port that the query port is to
have, though the pool has another. -/
theorem sampleReservation_starved : ¬∃ lib, Reserves lib sampleReservation := by
  rintro ⟨lib, h⟩
  let prepared : Prepared := {
    endpoints := [⟨"Master", 10999, true⟩, ⟨"Master", 27016, false⟩], occupied := []
    reading := {
      explicit := OrderedMap.empty.insert 27016 30000, old := .empty
      udpAvailable := fun _ => true } }
  have hprepare : sampleReservation.prepare lib = .ok prepared := rfl
  have hrequests : prepared.requests = [none, some 30000] := rfl
  have hpool : sampleReservation.pool = [30000, 30001] := by decide +kernel
  have hfree : ∀ host, prepared.reading.free host = true := by
    intro host
    simp [prepared, Reading.free]
  have hfeasible : Feasible prepared.reading.free prepared.occupied sampleReservation.pool
      prepared.requests := by
    rw [hrequests, hpool]
    exact ⟨by simp, by simp [hfree, prepared], by simp [spare, hfree, prepared]⟩
  refine (reserve_succeeds_iff hprepare hfeasible).1 (h.complete prepared hprepare hfeasible) ?_
  rw [hrequests, hpool]
  exact ⟨[none], 30000, [], rfl, by simp, by simp [spare]⟩

end DstServer.Deployment
