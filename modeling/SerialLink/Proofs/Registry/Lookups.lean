-- The registry as a map of connections. What stands under an identifier is the
-- connection that the latest making call made for it, until that identifier is
-- removed; a connection keeps the device and the consumer that it was made
-- with. Disconnects go on threads of their own, so what is said of them holds
-- for any order in which the connections are gone through.
import Mathlib.Data.Set.Card
import SerialLink.Proofs.Registry.Endings

namespace SerialLink

open Connection

/-! ## Entries that come and go -/

section Entries

variable {κ β : Type} [DecidableEq κ] {key other : κ} {entries : List (κ × β)}

theorem valueAt?_concat (value : β) :
    valueAt? key (entries ++ [(other, value)]) =
      (valueAt? key entries).or (if other = key then some value else none) := by
  unfold valueAt?
  rw [List.find?_append, List.find?_singleton, Option.map_or]
  by_cases h : other = key <;> simp [h]

theorem valueAt?_forget :
    valueAt? key (entries.filter fun e => e.1 != other) =
      if key = other then none else valueAt? key entries := by
  unfold valueAt?
  rw [List.find?_filter]
  by_cases h : key = other
  · subst h
    simp
  · have hsame : (fun e : κ × β => decide ((e.1 != other) = true ∧ decide (e.1 = key) = true)) =
        fun e => decide (e.1 = key) := by
      funext e
      by_cases he : e.1 = key <;> simp [he, h]
    rw [hsame, if_neg h]

end Entries

namespace Directory

variable {κ : Type}

/-! ## Requests -/

/-- What can happen next: a request to the registry, or something that a connection does. -/
inductive Request (κ : Type)
  | getOrCreate (device : DeviceInfo) (consumer : κ)
  | get (identifier : String)
  | remove (identifier : String)
  | disconnectAll
  | call (connection : Nat) (call : Call)
  | emit (event : DeviceEvent)
  | step (connection thread : Nat) (x : Outside)

/-- The same where consumers are of no account. -/
def Request.act : Request κ → Fleet.Act
  | .getOrCreate device _ => .getOrCreate device
  | .get identifier => .get identifier
  | .remove identifier => .remove identifier
  | .disconnectAll => .disconnectAll
  | .call connection begun => .call connection begun
  | .emit event => .emit event
  | .step connection thread x => .step connection thread x

/-- The identifier that a request asks for. -/
def Request.identifier? : Request κ → Option String
  | .getOrCreate device _ => some device.identifier
  | .get identifier | .remove identifier => some identifier
  | _ => none

/-- Registry and connections without the consumers. -/
def fleet (d : Directory κ) : Fleet :=
  { config := d.config, registry := d.registry, world := d.world }

/-- What a request does. Only a new connection changes who is told. -/
def perform (d : Directory κ) (r : Request κ) : Directory κ :=
  match r with
  | .getOrCreate device consumer => (d.getOrCreate device consumer).2
  | r => { d with registry := (d.fleet.act r.act).registry, world := (d.fleet.act r.act).world }

/-- The connection that a request comes back with. -/
def answer (d : Directory κ) : Request κ → Option Nat
  | .getOrCreate device consumer => some (d.getOrCreate device consumer).1
  | .get identifier => d.registry.get identifier
  | .remove identifier => (d.registry.remove identifier).1
  | _ => none

/-- What comes of a registry by these requests. -/
def of (config : ConnectionConfig) (rs : List (Request κ)) : Directory κ :=
  rs.foldl perform { config }

theorem of_append (config : ConnectionConfig) (rs : List (Request κ)) (r : Request κ) :
    of config (rs ++ [r]) = (of config rs).perform r := by
  unfold of
  rw [List.foldl_append]
  rfl

/-- What holds behind some requests, and is kept by every other, holds from there on. -/
theorem of_later {config : ConnectionConfig} {rs : List (Request κ)} {P : Directory κ → Prop}
    (h : P (of config rs)) (step : ∀ d r, P d → P (d.perform r)) (since : List (Request κ)) :
    P (of config (rs ++ since)) := by
  induction since using List.reverseRecOn with
  | nil => rwa [List.append_nil]
  | append_singleton since r ih =>
    rw [← List.append_assoc, of_append]
    exact step _ r ih

/-! ## One request -/

section OneRequest

variable {d : Directory κ} {device : DeviceInfo} {consumer : κ} {n : Nat} {identifier : String}

theorem getOrCreate_found (h : d.registry.get device.identifier = some n) (consumer : κ) :
    d.getOrCreate device consumer = (n, d) := by
  unfold getOrCreate
  rw [h]

theorem getOrCreate_new (h : d.registry.get device.identifier = none) (consumer : κ) :
    d.getOrCreate device consumer = (d.world.machines.length,
      { d with
        registry := { entries :=
          d.registry.entries ++ [(device.identifier, d.world.machines.length)] }
        world := (d.world.add (.new device d.config {})).2
        consumers := d.consumers ++ [consumer] }) := by
  unfold getOrCreate Registry.getOrCreate
  rw [h]
  rfl

theorem fleet_perform (d : Directory κ) (r : Request κ) :
    (d.perform r).fleet = d.fleet.act r.act := by
  cases r with
  | getOrCreate device consumer =>
    unfold perform Request.act Fleet.act
    dsimp only
    rcases h : d.registry.get device.identifier with _ | n
    · rw [getOrCreate_new h]
      simp [fleet, Registry.getOrCreate, h, World.add]
    · rw [getOrCreate_found h]
      simp [fleet, Registry.getOrCreate, h]
  | call connection begun =>
    unfold perform fleet Request.act Fleet.act
    dsimp only
    split <;> rfl
  | step connection thread x =>
    unfold perform fleet Request.act Fleet.act
    dsimp only
    split <;> rfl
  | _ => rfl

theorem fleet_of (config : ConnectionConfig) (rs : List (Request κ)) :
    (of config rs).fleet = Fleet.of config (rs.map Request.act) := by
  induction rs using List.reverseRecOn with
  | nil => rfl
  | append_singleton rs r ih =>
    rw [of_append, fleet_perform, ih, List.map_append, List.map_singleton, Fleet.of_append]

theorem world_of (config : ConnectionConfig) (rs : List (Request κ)) :
    (of config rs).world = (Fleet.of config (rs.map Request.act)).world :=
  congrArg Fleet.world (fleet_of config rs)

theorem registry_of (config : ConnectionConfig) (rs : List (Request κ)) :
    (of config rs).registry = (Fleet.of config (rs.map Request.act)).registry :=
  congrArg Fleet.registry (fleet_of config rs)

theorem does_perform (d : Directory κ) (r : Request κ) :
    Fleet.Does d.fleet r.act (d.perform r).fleet := by
  rw [fleet_perform]
  exact Fleet.does_act _ _

/-- A request changes what stands under its own identifier only. -/
theorem get_perform (d : Directory κ) (r : Request κ) (key : String) :
    (d.perform r).registry.get key = match r with
      | .getOrCreate device consumer =>
        if key = device.identifier then some (d.getOrCreate device consumer).1
        else d.registry.get key
      | .remove identifier => if key = identifier then none else d.registry.get key
      | _ => d.registry.get key := by
  cases r with
  | getOrCreate device consumer =>
    unfold perform
    dsimp only
    rcases h : d.registry.get device.identifier with _ | n
    · rw [getOrCreate_new h]
      show valueAt? key (d.registry.entries ++ [(device.identifier, _)]) = _
      rw [valueAt?_concat]
      by_cases hkey : key = device.identifier
      · have hnone : valueAt? key d.registry.entries = none := hkey ▸ h
        simp [hkey ▸ hnone, hkey]
      · rw [if_neg (Ne.symm hkey), if_neg hkey, Option.or_none]
        rfl
    · rw [getOrCreate_found h]
      split
      · rename_i hkey
        rw [hkey]
        exact h
      · rfl
  | remove identifier => exact valueAt?_forget
  | call connection begun =>
    unfold perform fleet Request.act Fleet.act
    dsimp only
    split <;> rfl
  | step connection thread x =>
    unfold perform fleet Request.act Fleet.act
    dsimp only
    split <;> rfl
  | _ => rfl

/-- What was found is found until it is removed. -/
theorem get_stays {r : Request κ} (h : d.registry.get identifier = some n)
    (hr : r ≠ .remove identifier) : (d.perform r).registry.get identifier = some n := by
  rw [get_perform]
  split
  · split
    · rename_i hkey
      rw [getOrCreate_found (hkey ▸ h)]
    · exact h
  · rename_i other
    rw [if_neg fun heq => hr (by rw [heq])]
    exact h
  · exact h

/-- What is not found was not made, or the request makes it. -/
theorem get_none_stays {r : Request κ} (h : d.registry.get identifier = none)
    (hr : ∀ device consumer, r = .getOrCreate device consumer → device.identifier ≠ identifier) :
    (d.perform r).registry.get identifier = none := by
  rw [get_perform]
  split
  · rename_i device consumer
    rw [if_neg fun heq => hr device consumer rfl heq.symm]
    exact h
  · split
    · rfl
    · exact h
  · exact h

/-! ## Connections that stay -/

/-- A connection keeps its device. -/
theorem device_stays (r : Request κ) (h : (d.world.connection? n).map (·.device) = some device) :
    ((d.perform r).world.connection? n).map (·.device) = some device := by
  obtain ⟨c, hc, rfl⟩ := Option.map_eq_some_iff.mp h
  obtain ⟨c', hc', hdevice⟩ := (does_perform d r).device hc
  exact Option.map_eq_some_iff.mpr ⟨c', hc', hdevice⟩

/-- A connection keeps its consumer. -/
theorem consumer_stays (r : Request κ) (h : d.consumers[n]? = some consumer) :
    (d.perform r).consumers[n]? = some consumer := by
  cases r with
  | getOrCreate device other =>
    unfold perform
    dsimp only
    rcases hd : d.registry.get device.identifier with _ | n
    · rw [getOrCreate_new hd]
      exact (List.getElem?_append_left (List.getElem?_eq_some_iff.mp h).1).trans h
    · rw [getOrCreate_found hd]
      exact h
  | _ => exact h

/-- Only a request for a connection makes one. -/
theorem length_of_does {f f' : Fleet} {a : Fleet.Act} (h : Fleet.Does f a f')
    (ha : ∀ device, a ≠ .getOrCreate device) :
    f'.world.machines.length = f.world.machines.length := by
  have hlt : ∀ (w : World) (n : Nat), (w.connection? n).isSome ↔ n < w.machines.length := by
    intro w n
    simp [World.connection?]
  have hsame : ∀ n, (f'.world.connection? n).isSome ↔ (f.world.connection? n).isSome := by
    intro n
    cases h with
    | started world => rw [world.connections n]
    | made => exact absurd rfl (ha _)
    | @stepped k _ _ _ _ world =>
      by_cases hk : n = k
      · subst hk
        obtain ⟨c, _, _, _, hc, _, _, hc'⟩ := world.own
        rw [hc, hc']
        rfl
      · rw [world.others n hk]
  have hiff : ∀ n, n < f'.world.machines.length ↔ n < f.world.machines.length := fun n => by
    rw [← hlt, ← hlt, hsame]
  exact Nat.le_antisymm (Nat.le_of_not_lt fun hl => Nat.lt_irrefl _ ((hiff _).mp hl))
    (Nat.le_of_not_lt fun hl => Nat.lt_irrefl _ ((hiff _).mpr hl))

/-- Every connection has a consumer. -/
theorem length_consumers (config : ConnectionConfig) (rs : List (Request κ)) :
    (of config rs).consumers.length = (of config rs).world.machines.length := by
  induction rs using List.reverseRecOn with
  | nil => rfl
  | append_singleton rs r ih =>
    rw [of_append]
    generalize of config rs = d at ih
    have hother := length_of_does (does_perform d r)
    cases r with
    | getOrCreate device consumer =>
      unfold perform
      dsimp only
      rcases hd : d.registry.get device.identifier with _ | n
      · rw [getOrCreate_new hd]
        simp [World.add, ih]
      · rw [getOrCreate_found hd]
        exact ih
    | _ => exact ih.trans (hother nofun).symm

end OneRequest

/-! ## Who made a connection -/

/-- A request made connection `n` for a device and a consumer, and these requests came since. -/
inductive Made (config : ConnectionConfig) (rs since : List (Request κ)) (device : DeviceInfo)
    (consumer : κ) (n : Nat) : Prop
  | intro {before : List (Request κ)}
    (split : rs = before ++ .getOrCreate device consumer :: since)
    (new : (of config before).registry.get device.identifier = none)
    (number : (of config before).answer (.getOrCreate device consumer) = some n)

/-- No request since made another connection for that identifier. -/
structure Latest (config : ConnectionConfig) (rs since : List (Request κ)) (device : DeviceInfo)
    (consumer : κ) (n : Nat) : Prop where
  made : Made config rs since device consumer n
  latest : ∀ {later : List (Request κ)} {other : DeviceInfo} {heard : κ} {m : Nat},
    Made config rs later other heard m → other.identifier = device.identifier →
      since.length ≤ later.length

section Made

variable {config : ConnectionConfig} {rs since : List (Request κ)} {device : DeviceInfo}
  {consumer : κ} {n : Nat} {identifier : String}

/-- Behind the request that made it, a connection is found, and has its device and its consumer. -/
theorem Made.behind (h : Made config rs since device consumer n) :
    ∃ past : List (Request κ), rs = past ++ since ∧
      (of config past).registry.get device.identifier = some n ∧
      ((of config past).world.connection? n).map (·.device) = some device ∧
      (of config past).consumers[n]? = some consumer := by
  obtain @⟨before, hsplit, hnew, hnumber⟩ := h
  have hn : (of config before).world.machines.length = n := by
    rw [answer, getOrCreate_new hnew] at hnumber
    exact Option.some.inj hnumber
  refine ⟨before ++ [.getOrCreate device consumer], by rw [hsplit]; simp, ?_, ?_, ?_⟩
  · rw [of_append, get_perform]
    dsimp only
    rw [if_pos rfl]
    exact hnumber
  · rw [of_append, perform, getOrCreate_new hnew]
    dsimp only
    rw [World.connection?_add, if_pos hn.symm]
    rfl
  · rw [of_append, perform, getOrCreate_new hnew]
    dsimp only
    rw [← hn, ← length_consumers, List.getElem?_concat_length]

theorem Made.own (h : Made config rs since device consumer n) :
    ((of config rs).world.connection? n).map (·.device) = some device ∧
      (of config rs).consumers[n]? = some consumer := by
  obtain ⟨past, rfl, -, hdevice, hconsumer⟩ := h.behind
  exact ⟨of_later (P := fun d => (d.world.connection? n).map (·.device) = some device) hdevice
      (fun _ r h => device_stays r h) since,
    of_later (P := fun d => d.consumers[n]? = some consumer) hconsumer
      (fun _ r h => consumer_stays r h) since⟩

theorem get_later {past : List (Request κ)}
    (h : (of config past).registry.get identifier = some n)
    (hno : .remove identifier ∉ since) :
    (of config (past ++ since)).registry.get identifier = some n := by
  induction since using List.reverseRecOn with
  | nil => rwa [List.append_nil]
  | append_singleton since r ih =>
    rw [← List.append_assoc, of_append]
    apply get_stays
    · exact ih fun hmem => hno (List.mem_append_left _ hmem)
    · rintro rfl
      exact hno (List.mem_append_right _ (List.mem_singleton_self _))

/-- A connection is found until its identifier is removed. -/
theorem Latest.found (h : Latest config rs since device consumer n)
    (hno : .remove device.identifier ∉ since) :
    (of config rs).registry.get device.identifier = some n := by
  obtain ⟨past, rfl, hget, -, -⟩ := h.made.behind
  exact get_later hget hno

theorem Made.more (h : Made config rs since device consumer n) (r : Request κ) :
    Made config (rs ++ [r]) (since ++ [r]) device consumer n := by
  obtain @⟨before, hsplit, hnew, hnumber⟩ := h
  have hmore : rs ++ [r] = before ++ .getOrCreate device consumer :: (since ++ [r]) := by
    rw [hsplit, List.append_assoc, List.cons_append]
  exact .intro hmore hnew hnumber

/-- What was not found is found only behind a request that made it. -/
theorem made_of_found {past : List (Request κ)}
    (hnone : (of config past).registry.get identifier = none)
    (h : (of config (past ++ since)).registry.get identifier = some n) :
    ∃ (later : List (Request κ)) (device : DeviceInfo) (consumer : κ),
      Made config (past ++ since) later device consumer n ∧ device.identifier = identifier ∧
        later.length < since.length := by
  induction since using List.reverseRecOn with
  | nil =>
    rw [List.append_nil, hnone] at h
    cases h
  | append_singleton since r ih =>
    rw [← List.append_assoc] at h ⊢
    rw [of_append] at h
    rw [List.length_append, List.length_singleton]
    rcases hbefore : (of config (past ++ since)).registry.get identifier with _ | m
    · -- this request is the one that made it
      have hmade : ∃ device consumer, r = .getOrCreate device consumer ∧
          device.identifier = identifier := by
        by_contra hno
        rw [get_none_stays hbefore fun device consumer hr hid =>
          hno ⟨device, consumer, hr, hid⟩] at h
        cases h
      obtain ⟨device, consumer, rfl, hid⟩ := hmade
      rw [get_perform] at h
      dsimp only at h
      rw [if_pos hid.symm] at h
      exact ⟨[], device, consumer, .intro rfl (hid ▸ hbefore) h, hid, Nat.succ_pos _⟩
    · have hr : r ≠ .remove identifier := by
        rintro rfl
        rw [get_perform] at h
        dsimp only at h
        rw [if_pos rfl] at h
        cases h
      obtain rfl := Option.some.inj ((get_stays hbefore hr).symm.trans h)
      obtain ⟨later, device, consumer, hmade, hid, hlt⟩ := ih hbefore
      refine ⟨later ++ [r], device, consumer, hmade.more r, hid, ?_⟩
      rw [List.length_append, List.length_singleton]
      exact Nat.succ_lt_succ hlt

/-- Behind its removal a connection is not found again. -/
theorem Latest.forgotten (h : Latest config rs since device consumer n)
    (hmem : .remove device.identifier ∈ since) :
    (of config rs).registry.get device.identifier = none := by
  obtain ⟨past, rfl, -, -, -⟩ := h.made.behind
  obtain ⟨early, late, rfl⟩ := List.append_of_mem hmem
  have hsplit : past ++ (early ++ .remove device.identifier :: late) =
      (past ++ early ++ [.remove device.identifier]) ++ late := by simp
  rcases hget : (of config (past ++ (early ++ .remove device.identifier :: late))).registry.get
      device.identifier with _ | m
  · rfl
  · have hnone : (of config (past ++ early ++ [.remove device.identifier])).registry.get
        device.identifier = none := by
      rw [of_append, get_perform]
      exact if_pos rfl
    rw [hsplit] at hget
    obtain ⟨later, other, heard, hmade, hid, hlt⟩ := made_of_found hnone hget
    rw [← hsplit] at hmade
    have hle := h.latest hmade hid
    rw [List.length_append, List.length_cons] at hle
    omega

/-- Of the requests that made a connection for an identifier, one is the latest. -/
theorem Made.exists_latest (h : Made config rs since device consumer n) :
    ∃ (later : List (Request κ)) (other : DeviceInfo) (heard : κ) (m : Nat),
      Latest config rs later other heard m ∧ other.identifier = device.identifier := by
  induction hlen : since.length using Nat.strong_induction_on
    generalizing since device consumer n with
  | h length ih =>
    by_cases hlast : ∀ {later : List (Request κ)} {other : DeviceInfo} {heard : κ} {m : Nat},
        Made config rs later other heard m → other.identifier = device.identifier →
          since.length ≤ later.length
    · exact ⟨since, device, consumer, n, ⟨h, hlast⟩, rfl⟩
    · push Not at hlast
      obtain ⟨later, other, heard, m, hmade, hid, hlt⟩ := hlast
      obtain ⟨latest, device', consumer', n', hlatest, hid'⟩ := ih _ (hlen ▸ hlt) hmade rfl
      exact ⟨latest, device', consumer', n', hlatest, hid'.trans hid⟩

theorem get_of_unmade (h : ∀ (later : List (Request κ)) (device : DeviceInfo) (consumer : κ) n,
      Latest config rs later device consumer n → device.identifier ≠ identifier) :
    (of config rs).registry.get identifier = none := by
  rcases hget : (of config rs).registry.get identifier with _ | m
  · rfl
  · have hnone : (of config ([] : List (Request κ))).registry.get identifier = none := rfl
    have hlater : (of config ([] ++ rs)).registry.get identifier = some m := hget
    obtain ⟨_, device, _, hmade, hid, -⟩ := made_of_found hnone hlater
    rw [List.nil_append] at hmade
    obtain ⟨later, other, heard, n, hlatest, hsame⟩ := hmade.exists_latest
    exact absurd (hsame.trans hid) (h later other heard n hlatest)

end Made

/-! ## Answers -/

section Answers

variable {config : ConnectionConfig} {rs : List (Request κ)} {n : Nat} {identifier : String}

theorem registered (config : ConnectionConfig) (rs : List (Request κ)) :
    (of config rs).fleet.Registered := by
  rw [fleet_of]
  exact Fleet.registered config _

/-- What a request comes back with is a connection to the device that it asks for. -/
theorem identifier_of_answer {r : Request κ} (h : (of config rs).answer r = some n) :
    ∃ identifier, r.identifier? = some identifier ∧
      (of config (rs ++ [r])).fleet.identifier? n = some identifier := by
  have hfound : ∀ {identifier} {rs : List (Request κ)},
      (of config rs).registry.get identifier = some n →
        (of config rs).fleet.identifier? n = some identifier :=
    fun hget => (registered config _).own (mem_of_valueAt? hget)
  have hstay : ∀ {identifier}, (of config rs).registry.get identifier = some n →
      (of config (rs ++ [r])).fleet.identifier? n = some identifier := by
    intro identifier hget
    rw [of_append]
    exact (does_perform _ r).identifier (hfound hget)
  cases r with
  | getOrCreate device consumer =>
    refine ⟨device.identifier, rfl, hfound ?_⟩
    rw [of_append, get_perform]
    exact (if_pos rfl).trans h
  | get identifier => exact ⟨identifier, rfl, hstay h⟩
  | remove identifier => exact ⟨identifier, rfl, hstay h⟩
  | _ => cases h

theorem identifier_later {past : List (Request κ)}
    (h : (of config past).fleet.identifier? n = some identifier) (since : List (Request κ)) :
    (of config (past ++ since)).fleet.identifier? n = some identifier :=
  of_later (P := fun d => d.fleet.identifier? n = some identifier) h
    (fun d r hd => (does_perform d r).identifier hd) since

theorem identifier_of_earlier {early late : List (Request κ)} {r : Request κ}
    (hsplit : rs = early ++ r :: late) (h : (of config early).answer r = some n) :
    ∃ identifier, r.identifier? = some identifier ∧
      (of config rs).fleet.identifier? n = some identifier := by
  obtain ⟨identifier, hr, hid⟩ := identifier_of_answer h
  refine ⟨identifier, hr, ?_⟩
  have hlater := identifier_later hid late
  rwa [List.append_assoc, List.singleton_append, ← hsplit] at hlater

theorem lt_of_identifier {d : Directory κ} (h : d.fleet.identifier? n = some identifier) :
    n < d.world.machines.length := by
  obtain ⟨c, hc, -⟩ := Option.map_eq_some_iff.mp h
  obtain ⟨m, hm, -⟩ := Option.map_eq_some_iff.mp hc
  exact (List.getElem?_eq_some_iff.mp hm).1

/-- The registry has as many entries as identifiers are found. -/
theorem size_eq (config : ConnectionConfig) (rs : List (Request κ)) :
    (of config rs).registry.size =
      Set.ncard {identifier | ((of config rs).registry.get identifier).isSome} := by
  have hkeys : ((of config rs).registry.entries.map (·.1)).Nodup := (registered config rs).keys
  have hset : {identifier | ((of config rs).registry.get identifier).isSome} =
      (((of config rs).registry.entries.map (·.1)).toFinset : Set String) := by
    ext identifier
    rw [Set.mem_ofPred_eq, List.coe_toFinset, Set.mem_ofPred_eq]
    constructor
    · intro h
      obtain ⟨n, hn⟩ := Option.isSome_iff_exists.mp h
      exact List.mem_map_of_mem (mem_of_valueAt? hn)
    · intro h
      by_contra hno
      exact not_mem_of_valueAt?_none (Option.not_isSome_iff_eq_none.mp hno) h
  rw [hset, Set.ncard_coe_finset, List.toFinset_card_of_nodup hkeys, List.length_map]
  rfl

end Answers

/-! ## The law -/

/-- The state of a connection. -/
def state? (d : Directory κ) (n : Nat) : Option ConnectionState :=
  (d.world.connection? n).map (·.state)

/-- What becomes of a connection whose disconnect was begun on a thread. -/
structure Disconnected (config : ConnectionConfig) (past : List (Request κ)) (n thread : Nat) :
    Prop where
  begun : (of config past).world.thread? n thread = some Call.disconnect.tasks
  /-- The disconnect ends, whatever comes between its steps and whatever the outside answers. -/
  ends : ∀ since : List (Request κ), disconnectSteps ≤ since.countP (·.act.isStepOf n thread) →
    (of config (past ++ since)).world.thread? n thread = some []
  /-- Once it has ended the connection is at rest, unless it was connected again. -/
  rests : ∀ since : List (Request κ), (of config (past ++ since)).world.thread? n thread = some [] →
    (of config (past ++ since)).state? n = some .disconnected ∨
      (of config (past ++ since)).state? n = some .failed ∨
        Fleet.Reconnected config (past.map Request.act) (since.map Request.act) n

/-- The registry is a map of connections. -/
structure Maps (config : ConnectionConfig) (rs : List (Request κ)) : Prop where
  /-- The connection made last for an identifier is found, and asked for again, until that is
  removed. -/
  found : ∀ {since : List (Request κ)} {device : DeviceInfo} {consumer : κ} {n : Nat},
    Latest config rs since device consumer n → .remove device.identifier ∉ since →
      (of config rs).answer (.get device.identifier) = some n ∧
        ∀ (other : DeviceInfo) (heard : κ), other.identifier = device.identifier →
          (of config rs).getOrCreate other heard = (n, of config rs)
  forgotten : ∀ {since : List (Request κ)} {device : DeviceInfo} {consumer : κ} {n : Nat},
    Latest config rs since device consumer n → .remove device.identifier ∈ since →
      (of config rs).answer (.get device.identifier) = none
  unmade : ∀ identifier, (∀ (since : List (Request κ)) (device : DeviceInfo) (consumer : κ) n,
      Latest config rs since device consumer n → device.identifier ≠ identifier) →
    (of config rs).answer (.get identifier) = none
  /-- Where none is found, a connection is made that no request came back with before. -/
  new : ∀ (device : DeviceInfo) (consumer : κ),
    (of config rs).answer (.get device.identifier) = none →
      ∃ n, (of config rs).answer (.getOrCreate device consumer) = some n ∧
        Made config (rs ++ [.getOrCreate device consumer]) [] device consumer n ∧
        ∀ early r late m, rs = early ++ r :: late → (of config early).answer r = some m → m ≠ n
  /-- Two requests that come back with one connection ask for one identifier. -/
  apart : ∀ {early late early' late' : List (Request κ)} {r r' : Request κ} {n : Nat},
    rs = early ++ r :: late → rs = early' ++ r' :: late' →
      (of config early).answer r = some n → (of config early').answer r' = some n →
        r.identifier? = r'.identifier?
  /-- A connection has the device and the consumer of the request that made it. -/
  own : ∀ {since : List (Request κ)} {device : DeviceInfo} {consumer : κ} {n : Nat},
    Made config rs since device consumer n →
      ((of config rs).world.connection? n).map (·.device) = some device ∧
        (of config rs).consumers[n]? = some consumer
  size : (of config rs).registry.size =
    Set.ncard {identifier | ((of config rs).answer (.get identifier)).isSome}
  /-- A removal comes back with the connection found, and forgets that one only. -/
  removes : ∀ identifier,
    (of config rs).answer (.remove identifier) = (of config rs).answer (.get identifier) ∧
      ∀ key, (of config (rs ++ [.remove identifier])).answer (.get key) =
        if key = identifier then none else (of config rs).answer (.get key)
  removed : ∀ {identifier : String} {n : Nat},
    (of config rs).answer (.remove identifier) = some n →
      ∃ thread, Disconnected config (rs ++ [.remove identifier]) n thread
  /-- A disconnect of all forgets none. Its disconnects may go in any order. -/
  all : ∀ {identifier : String} {n : Nat}, (of config rs).answer (.get identifier) = some n →
    (∃ thread, Disconnected config (rs ++ [.disconnectAll]) n thread) ∧
      ∀ since : List (Request κ), .remove identifier ∉ since →
        (of config (rs ++ [.disconnectAll] ++ since)).answer (.get identifier) = some n

theorem disconnected_of_begun {config : ConnectionConfig} {past : List (Request κ)}
    {n thread : Nat}
    (h : (of config past).world.thread? n thread = some Call.disconnect.tasks) :
    Disconnected config past n thread := by
  rw [world_of] at h
  have hends := Fleet.disconnects_of_begun h
  constructor
  case begun =>
    rw [world_of]
    exact h
  case ends =>
    intro since enough
    rw [world_of, List.map_append]
    apply hends.ends
    rw [List.countP_map]
    exact enough
  case rests =>
    intro since hended
    rw [world_of, List.map_append] at hended
    unfold state?
    rw [world_of, List.map_append]
    rcases hends.rests _ hended with hrest | hagain
    · obtain ⟨m, hm, -⟩ := Option.bind_eq_some_iff.mp hended
      unfold Fleet.live World.connection? at hrest
      rw [hm, Option.map_some, Option.map_some, Option.getD_some] at hrest
      rw [World.connection?, hm, Option.map_some, Option.map_some]
      rcases (not_isLive_iff _).mp hrest with hstate | hstate
      · exact Or.inl (congrArg some hstate)
      · exact Or.inr (Or.inl (congrArg some hstate))
    · exact Or.inr (Or.inr hagain)

theorem disconnected_of_remove {config : ConnectionConfig} {rs : List (Request κ)}
    {identifier : String} {n : Nat} (h : (of config rs).registry.get identifier = some n) :
    ∃ thread, Disconnected config (rs ++ [.remove identifier]) n thread := by
  rw [registry_of] at h
  obtain ⟨thread, -, hbegun⟩ := Fleet.disconnect_of_remove h
  refine ⟨thread, disconnected_of_begun ?_⟩
  rw [world_of, List.map_append]
  exact hbegun

theorem disconnected_of_all {config : ConnectionConfig} {rs : List (Request κ)}
    {identifier : String} {n : Nat} (h : (of config rs).registry.get identifier = some n) :
    ∃ thread, Disconnected config (rs ++ [.disconnectAll]) n thread := by
  have hmem : n ∈ (Fleet.of config (rs.map Request.act)).registry.numbers := by
    rw [← registry_of]
    exact List.mem_map_of_mem (mem_of_valueAt? h)
  have hid := (registered config rs).own (mem_of_valueAt? h)
  rw [fleet_of] at hid
  obtain ⟨c, hc, -⟩ := Option.map_eq_some_iff.mp hid
  obtain ⟨thread, hbegun⟩ := Fleet.disconnect_of_all hmem (Option.isSome_iff_exists.mpr ⟨c, hc⟩)
  refine ⟨thread, disconnected_of_begun ?_⟩
  rw [world_of, List.map_append]
  exact hbegun

/-- A registry gives out one connection for each identifier until that is removed, and the
connections that it removes or disconnects come to rest. -/
theorem a_registry_is_a_map_of_connections {κ : Type} (config : ConnectionConfig)
    (rs : List (Request κ)) : Maps config rs := by
  constructor
  case found =>
    intro since device consumer n hlatest hno
    have hget := hlatest.found hno
    exact ⟨hget, fun other heard hid => getOrCreate_found (hid ▸ hget) heard⟩
  case forgotten => exact fun hlatest hmem => hlatest.forgotten hmem
  case unmade => exact fun identifier h => get_of_unmade h
  case new =>
    intro device consumer hnone
    have hnew : (of config rs).answer (.getOrCreate device consumer) =
        some (of config rs).world.machines.length := by
      rw [answer, getOrCreate_new hnone]
    refine ⟨_, hnew, .intro rfl hnone hnew, ?_⟩
    intro early r late m hsplit hm heq
    obtain ⟨identifier, -, hid⟩ := identifier_of_earlier hsplit hm
    exact absurd (lt_of_identifier hid) (by omega)
  case apart =>
    intro early late early' late' r r' n hsplit hsplit' hr hr'
    obtain ⟨identifier, hid, hof⟩ := identifier_of_earlier hsplit hr
    obtain ⟨identifier', hid', hof'⟩ := identifier_of_earlier hsplit' hr'
    rw [hid, hid', ← hof, ← hof']
  case own => exact fun hmade => hmade.own
  case size => exact size_eq config rs
  case removes =>
    intro identifier
    refine ⟨rfl, fun key => ?_⟩
    rw [of_append]
    exact get_perform _ _ _
  case removed => exact fun hfound => disconnected_of_remove hfound
  case all =>
    intro identifier n hget
    refine ⟨disconnected_of_all hget, fun since hno => ?_⟩
    apply get_later _ hno
    rw [of_append, get_perform]
    exact hget

end Directory

end SerialLink
