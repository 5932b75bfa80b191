import FieldCalculus.Proofs.Deliveries

/-!
What becomes of messages at a queued hub. Each message for an id waits at the endpoint that the id
addresses until that endpoint collects it, so an endpoint moves into its table what its id was told,
in order and once. This fails when an older endpoint of the id is given up, since the hub then stops
addressing the id altogether: the condition for it is exact.
-/

namespace FieldCalculus

theorem NeighborTable.find?_storeAll (t : NeighborTable) (messages : List Message) (now : Nat)
    (sender : DeviceId) : (t.storeAll messages now).entries.find? sender =
      ((messages.filter (·.sender = sender)).getLast?.map (⟨·, now⟩)).or
        (t.entries.find? sender) := by
  induction messages generalizing t with
  | nil => rfl
  | cons message rest ih =>
      refine (ih (t.store message now)).trans ?_
      rw [find?_store]
      by_cases hsender : message.sender = sender
      · rw [List.filter_cons_of_pos (by simpa using hsender), List.getLast?_cons,
          if_pos hsender.symm]
        cases (rest.filter (·.sender = sender)).getLast? <;> rfl
      · rw [List.filter_cons_of_neg (by simpa using hsender), if_neg (Ne.symm hsender)]

namespace Hub

/-! ## What can happen to a hub -/

/-- Anything that happens to a hub whose messages are queued. -/
inductive Act where
  | join (id : DeviceId)
  | drop (endpoint : Nat)
  | publish (message : Message) (now : Nat) (recipients : DeviceSet)
  | collect (endpoint : Nat) (now : Nat)

/-- The hub after an act. -/
def perform (hub : Hub) : Act → Hub
  | .join id => hub.join id
  | .drop endpoint => hub.drop endpoint
  | .publish message now recipients => (hub.publish message now recipients.toList).hub
  | .collect endpoint now => hub.collect endpoint now

def run (hub : Hub) (acts : List Act) : Hub := acts.foldl perform hub

/-- The messages that wait for an endpoint, oldest first. -/
def pending (hub : Hub) (endpoint : Nat) : List Message :=
  ((hub.endpoints.find? endpoint).map Endpoint.queue).getD []

/-- The messages that an act moves into the table of an endpoint. -/
def movedBy (hub : Hub) (endpoint : Nat) : Act → List Message
  | .collect number _ => if number = endpoint then hub.pending endpoint else []
  | _ => []

/-- The messages that acts move into the table of an endpoint, in order. -/
def moved (hub : Hub) (endpoint : Nat) : List Act → List Message
  | [] => []
  | act :: rest => hub.movedBy endpoint act ++ (hub.perform act).moved endpoint rest

/-- The messages published to an id while an endpoint is the last one that joined under it and is
not given up, in order. -/
def told (id : DeviceId) (endpoint : Nat) : List Act → List Message
  | [] => []
  | .join other :: rest => if other = id then [] else told id endpoint rest
  | .drop number :: rest => if number = endpoint then [] else told id endpoint rest
  | .publish message _ recipients :: rest =>
    (if id ∈ recipients.toList then [message] else []) ++ told id endpoint rest
  | .collect _ _ :: rest => told id endpoint rest

/-- The id that an endpoint joined under. -/
def owner? (hub : Hub) (endpoint : Nat) : Option DeviceId :=
  (hub.endpoints.find? endpoint).map Endpoint.id

/-- Whether nothing is told to an id any more once an older endpoint of it is given up. -/
def spares (hub : Hub) (id : DeviceId) (endpoint : Nat) : List Act → Bool
  | [] => true
  | .join other :: rest => other = id || (hub.join other).spares id endpoint rest
  | .drop number :: rest =>
    if number = endpoint then true
    else if hub.owner? number = some id then (told id endpoint rest).isEmpty
    else (hub.drop number).spares id endpoint rest
  | act :: rest => (hub.perform act).spares id endpoint rest

variable {hub : Hub} {id : DeviceId} {endpoint number : Nat}

theorem moved_append (hub : Hub) (endpoint : Nat) (first second : List Act) :
    hub.moved endpoint (first ++ second) =
      hub.moved endpoint first ++ (hub.run first).moved endpoint second := by
  induction first generalizing hub with
  | nil => rfl
  | cons act rest ih =>
      rw [List.cons_append, moved, moved, ih, List.append_assoc]
      rfl

/-! ## Publications -/

/-- Every id that the hub addresses is addressed at an endpoint that joined under it and is not
given up. -/
structure Faithful (hub : Hub) : Prop where
  delivery : hub.delivery = .queued
  addressed : ∀ id number, hub.registry.find? id = some number →
    ∃ e, hub.endpoints.find? number = some e ∧ e.id = id ∧ e.held = true
  numbered : ∀ number, (hub.endpoints.find? number).isSome → number < hub.next

/-- The hub with a message waiting for its recipients. -/
def post (hub : Hub) (message : Message) (recipients : List DeviceId) : Hub :=
  { hub with endpoints := hub.endpoints.mapWithKey fun number e =>
      if ∃ id ∈ recipients, hub.registry.find? id = some number then
        { e with queue := e.queue ++ [message] }
      else e }

theorem find?_post (message : Message) (recipients : List DeviceId) (number : Nat) :
    (hub.post message recipients).endpoints.find? number =
      (hub.endpoints.find? number).map fun e =>
        if ∃ id ∈ recipients, hub.registry.find? id = some number then
          { e with queue := e.queue ++ [message] }
        else e :=
  Dict.find?_mapWithKey _ _ _

namespace Faithful

theorem empty (staleness : Nat) : (Hub.empty .queued staleness).Faithful := by
  refine ⟨rfl, ?_, ?_⟩
  · intro id number h
    cases h
  · intro number h
    cases h

/-- Changes to what endpoints hold keep a hub faithful. -/
theorem change (h : hub.Faithful) {next : Hub} (hdelivery : next.delivery = hub.delivery)
    (hregistry : next.registry = hub.registry) (hnext : next.next = hub.next)
    (hendpoints : ∀ number, (next.endpoints.find? number).map (fun e => (e.id, e.held)) =
      (hub.endpoints.find? number).map fun e => (e.id, e.held)) : next.Faithful := by
  constructor
  case delivery => rw [hdelivery, h.delivery]
  case addressed =>
    intro id number hfound
    rw [hregistry] at hfound
    obtain ⟨e, he, hid, hheld⟩ := h.addressed id number hfound
    have hsame := hendpoints number
    rw [he, Option.map_some, Option.map_eq_some_iff] at hsame
    obtain ⟨after, hafter, heq⟩ := hsame
    rw [Prod.mk.injEq] at heq
    exact ⟨after, hafter, heq.1.trans hid, heq.2.trans hheld⟩
  case numbered =>
    intro number hnumber
    have hsame := congrArg Option.isSome (hendpoints number)
    rw [Option.isSome_map, Option.isSome_map] at hsame
    rw [hsame] at hnumber
    rw [hnext]
    exact h.numbered number hnumber

theorem update (h : hub.Faithful) (endpoint : Nat) {change : Endpoint → Endpoint}
    (hkept : ∀ e, (change e).id = e.id ∧ (change e).held = e.held) :
    (hub.update endpoint change).Faithful := by
  refine h.change rfl rfl rfl ?_
  intro number
  rw [find?_update]
  split
  · rename_i heq
    rw [heq, Option.map_map]
    exact congrArg (Option.map · _) (funext fun e => Prod.ext (hkept e).1 (hkept e).2)
  · rfl

theorem post (h : hub.Faithful) (message : Message) (recipients : List DeviceId) :
    (hub.post message recipients).Faithful := by
  refine h.change rfl rfl rfl ?_
  intro number
  rw [find?_post, Option.map_map]
  congr 1
  funext e
  rw [Function.comp_apply]
  split <;> rfl

/-- A publication meets no closed recipient, and everyone addressed has the message waiting. -/
theorem publish (h : hub.Faithful) (message : Message) (now : Nat) {recipients : List DeviceId}
    (hnodup : recipients.Nodup) :
    (hub.publish message now recipients).hub = hub.post message recipients ∧
      (hub.publish message now recipients).fault = none := by
  induction recipients generalizing hub with
  | nil =>
      have hnobody : hub.post message [] = hub := by
        refine ext_endpoints rfl rfl rfl rfl ?_
        intro number
        rw [find?_post]
        simp
      exact ⟨hnobody.symm, rfl⟩
  | cons id rest ih =>
      obtain ⟨hnew, hrest⟩ := List.nodup_cons.mp hnodup
      cases hid : hub.registry.find? id with
      | none =>
          have hpassed : hub.post message rest = hub.post message (id :: rest) := by
            refine ext_endpoints rfl rfl rfl rfl ?_
            intro number
            rw [find?_post, find?_post]
            simp [hid]
          rw [Hub.publish, deliver_none hid, ← hpassed]
          exact ih h hrest
      | some endpoint =>
          obtain ⟨e, he, howner, hheld⟩ := h.addressed id endpoint hid
          have hdeliver : hub.deliver message now id = .ok
              (hub.update endpoint fun e => { e with queue := e.queue ++ [message] }, 0) := by
            rw [deliver, hid, h.delivery]
            simp [he, hheld]
          have hposted : (hub.update endpoint fun e =>
              { e with queue := e.queue ++ [message] }).post message rest =
                hub.post message (id :: rest) := by
            -- The message joins no queue twice: nobody else is addressed at this endpoint.
            have halone : ¬∃ other ∈ rest, hub.registry.find? other = some endpoint := by
              rintro ⟨other, hother, hfound⟩
              obtain ⟨e', he', howner', -⟩ := h.addressed other endpoint hfound
              rw [he, Option.some.injEq] at he'
              rw [← howner', ← he', howner] at hother
              exact hnew hother
            refine ext_endpoints rfl rfl rfl rfl ?_
            intro number
            rw [find?_post, find?_post, find?_update]
            change Option.map
              (fun e => if ∃ id ∈ rest, hub.registry.find? id = some number then _ else e) _ = _
            by_cases hnumber : number = endpoint
            · subst hnumber
              simp [he, halone, hid]
            · have hother : hub.registry.find? id ≠ some number := by
                rw [hid]
                simpa using Ne.symm hnumber
              simp [hnumber, hother]
          rw [Hub.publish, hdeliver, ← hposted]
          exact ih (h.update endpoint fun _ => ⟨rfl, rfl⟩) hrest

theorem publish_hub (h : hub.Faithful) (message : Message) (now : Nat) (recipients : DeviceSet) :
    hub.perform (.publish message now recipients) = hub.post message recipients.toList :=
  (h.publish message now recipients.ordered.nodup_keys).1

theorem join (h : hub.Faithful) (id : DeviceId) : (hub.join id).Faithful := by
  constructor
  case delivery => exact h.delivery
  case addressed =>
    intro other number hfound
    change (hub.registry.insert id hub.next).find? other = some number at hfound
    rw [Dict.find?_insert] at hfound
    split at hfound
    · rename_i heq
      cases hfound
      exact ⟨_, by rw [find?_join, if_pos rfl], heq.symm, rfl⟩
    · obtain ⟨e, he, hkept⟩ := h.addressed other number hfound
      have hbelow := h.numbered number (by rw [he]; rfl)
      exact ⟨e, by rw [find?_join, if_neg (Nat.ne_of_lt hbelow), he], hkept⟩
  case numbered =>
    intro number hnumber
    change number < hub.next + 1
    rw [find?_join] at hnumber
    split at hnumber
    · omega
    · have := h.numbered number hnumber
      omega

/-- Giving an endpoint up makes the hub forget its id. -/
theorem registry_drop (h : hub.Faithful) (endpoint : Nat) (id : DeviceId) :
    (hub.drop endpoint).registry.find? id =
      if hub.owner? endpoint = some id then none else hub.registry.find? id := by
  unfold Hub.drop owner?
  cases hub.endpoints.find? endpoint with
  | none => simp
  | some e =>
      dsimp only
      rw [h.delivery]
      refine (Dict.find?_erase _ _ _).trans ?_
      simp [eq_comm]

theorem drop (h : hub.Faithful) (endpoint : Nat) : (hub.drop endpoint).Faithful := by
  have halike := Alike.drop hub endpoint
  constructor
  case delivery => rw [halike.delivery, h.delivery]
  case addressed =>
    intro id number hfound
    rw [h.registry_drop] at hfound
    split at hfound
    · cases hfound
    · rename_i hother
      obtain ⟨e, he, hid, hheld⟩ := h.addressed id number hfound
      have hne : number ≠ endpoint := by
        rintro rfl
        rw [owner?, he, Option.map_some, hid] at hother
        exact hother rfl
      refine ⟨e, ?_, hid, hheld⟩
      rw [find?_drop, he, Option.map_some, if_neg hne]
  case numbered =>
    intro number hnumber
    rw [halike.present] at hnumber
    rw [halike.numbering]
    exact h.numbered number hnumber

theorem perform (h : hub.Faithful) (act : Act) : (hub.perform act).Faithful := by
  cases act with
  | join id => exact h.join id
  | drop endpoint => exact h.drop endpoint
  | publish message now recipients =>
      rw [h.publish_hub]
      exact h.post message recipients.toList
  | collect endpoint now => exact h.update endpoint fun _ => ⟨rfl, rfl⟩

theorem run (h : hub.Faithful) (acts : List Act) : (hub.run acts).Faithful := by
  induction acts generalizing hub with
  | nil => exact h
  | cons act rest ih => exact ih (h.perform act)

theorem owner (h : hub.Faithful) (hid : hub.registry.find? id = some endpoint) :
    hub.owner? endpoint = some id := by
  obtain ⟨e, he, howner, -⟩ := h.addressed id endpoint hid
  rw [owner?, he, Option.map_some, howner]

theorem below (h : hub.Faithful) (hid : hub.registry.find? id = some endpoint) :
    endpoint < hub.next := by
  obtain ⟨e, he, -⟩ := h.addressed id endpoint hid
  exact h.numbered endpoint (by rw [he]; rfl)

end Faithful

/-! ## What waits for an endpoint -/

/-- Whether any id addresses an endpoint. -/
def Addressed (hub : Hub) (endpoint : Nat) : Prop := ∃ id, hub.registry.find? id = some endpoint

/-- The messages that an act makes wait for an endpoint. -/
def postedBy (hub : Hub) (endpoint : Nat) : Act → List Message
  | .publish message _ recipients =>
    if ∃ id ∈ recipients.toList, hub.registry.find? id = some endpoint then [message] else []
  | _ => []

theorem next_perform (hub : Hub) (act : Act) : hub.next ≤ (hub.perform act).next := by
  cases act with
  | join id => exact Nat.le_succ _
  | drop endpoint => exact Nat.le_of_eq (Alike.drop hub endpoint).numbering.symm
  | publish message now recipients =>
      exact Nat.le_of_eq (publish_alike hub message now recipients.toList).numbering.symm
  | collect endpoint now => exact Nat.le_refl _

/-- A message that is posted waits behind what waited before, where an id addresses. -/
theorem pending_post (h : hub.Faithful) (message : Message) (recipients : List DeviceId)
    (endpoint : Nat) : (hub.post message recipients).pending endpoint =
      hub.pending endpoint ++
        if ∃ id ∈ recipients, hub.registry.find? id = some endpoint then [message] else [] := by
  rw [pending, find?_post, pending]
  cases he : hub.endpoints.find? endpoint with
  | none =>
      have hnobody : ¬∃ id ∈ recipients, hub.registry.find? id = some endpoint := by
        rintro ⟨id, -, hid⟩
        obtain ⟨e, hfound, -⟩ := h.addressed id endpoint hid
        rw [he] at hfound
        cases hfound
      rw [if_neg hnobody]
      rfl
  | some e =>
      rw [Option.map_some, Option.map_some, Option.map_some, Option.getD_some, Option.getD_some]
      split
      · rfl
      · exact (List.append_nil _).symm

/-- An act leaves waiting what waited and what it posts, but for what it moves. -/
theorem pending_perform (h : hub.Faithful) (hbelow : endpoint < hub.next) (act : Act) :
    hub.movedBy endpoint act ++ (hub.perform act).pending endpoint =
      hub.pending endpoint ++ hub.postedBy endpoint act := by
  cases act with
  | join id =>
      change [] ++ (hub.join id).pending endpoint = _
      rw [pending, find?_join, if_neg (Nat.ne_of_lt hbelow)]
      exact (List.append_nil _).symm
  | drop number =>
      change [] ++ (hub.drop number).pending endpoint = _
      rw [pending, find?_drop, Option.map_map]
      refine Eq.trans ?_ (List.append_nil _).symm
      refine congrArg (Option.getD · []) (congrArg (Option.map · _) (funext fun e => ?_))
      rw [Function.comp_apply]
      split <;> rfl
  | publish message now recipients =>
      rw [h.publish_hub]
      exact pending_post h message recipients.toList endpoint
  | collect number now =>
      change (if number = endpoint then hub.pending endpoint else []) ++
        (hub.update number _).pending endpoint = hub.pending endpoint ++ []
      unfold pending
      rw [find?_update]
      by_cases hown : endpoint = number
      · subst hown
        rw [if_pos rfl, if_pos rfl]
        cases hub.endpoints.find? endpoint <;> rfl
      · rw [if_neg (Ne.symm hown), if_neg hown, List.nil_append, List.append_nil]

/-- An endpoint stays with the id that it joined under. -/
theorem owner_perform (h : hub.Faithful) (hbelow : endpoint < hub.next) (act : Act) :
    (hub.perform act).owner? endpoint = hub.owner? endpoint := by
  have hkept : ∀ {change : Endpoint → Endpoint}, (∀ e, (change e).id = e.id) →
      ((hub.endpoints.find? endpoint).map change).map Endpoint.id = hub.owner? endpoint := by
    intro change hchange
    rw [Option.map_map]
    exact congrArg (Option.map · _) (funext hchange)
  cases act with
  | join id =>
      change ((hub.join id).endpoints.find? endpoint).map Endpoint.id = _
      rw [find?_join, if_neg (Nat.ne_of_lt hbelow), owner?]
  | drop number =>
      change ((hub.drop number).endpoints.find? endpoint).map Endpoint.id = _
      rw [find?_drop]
      exact hkept fun e => by split <;> rfl
  | publish message now recipients =>
      rw [h.publish_hub, owner?, find?_post]
      exact hkept fun e => by split <;> rfl
  | collect number now =>
      change ((hub.update number _).endpoints.find? endpoint).map Endpoint.id = _
      rw [find?_update]
      split
      · rename_i heq
        rw [← heq]
        exact hkept fun _ => rfl
      · rfl

/-- An endpoint that no id addresses is never addressed again. -/
theorem not_addressed_perform (h : hub.Faithful) (hbelow : endpoint < hub.next)
    (hclosed : ¬hub.Addressed endpoint) (act : Act) : ¬(hub.perform act).Addressed endpoint := by
  rintro ⟨id, hid⟩
  cases act with
  | join other =>
      change (hub.registry.insert other hub.next).find? id = some endpoint at hid
      rw [Dict.find?_insert] at hid
      split at hid
      · cases hid
        exact Nat.lt_irrefl _ hbelow
      · exact hclosed ⟨id, hid⟩
  | drop number =>
      change (hub.drop number).registry.find? id = some endpoint at hid
      rw [h.registry_drop] at hid
      split at hid
      · cases hid
      · exact hclosed ⟨id, hid⟩
  | publish message now recipients =>
      rw [h.publish_hub] at hid
      exact hclosed ⟨id, hid⟩
  | collect number now => exact hclosed ⟨id, hid⟩

/-- What is moved and waits after an act and more is as expected if it is so after the act, with
what the act posts. -/
theorem moved_cons_iff (h : hub.Faithful) (hbelow : endpoint < hub.next) (act : Act)
    (rest : List Act) (expected : List Message) :
    hub.moved endpoint (act :: rest) ++ (hub.run (act :: rest)).pending endpoint =
        hub.pending endpoint ++ (hub.postedBy endpoint act ++ expected) ↔
      (hub.perform act).moved endpoint rest ++ ((hub.perform act).run rest).pending endpoint =
        (hub.perform act).pending endpoint ++ expected := by
  have hunfold : hub.moved endpoint (act :: rest) ++ (hub.run (act :: rest)).pending endpoint =
      hub.movedBy endpoint act ++ ((hub.perform act).moved endpoint rest ++
        ((hub.perform act).run rest).pending endpoint) := List.append_assoc _ _ _
  rw [hunfold, ← List.append_assoc (hub.pending endpoint), ← pending_perform h hbelow,
    List.append_assoc, List.append_cancel_left_eq]

/-- If an act posts nothing and nothing comes later, then what waited is moved or still waits. -/
theorem moved_cons_quiet (h : hub.Faithful) (hbelow : endpoint < hub.next) {act : Act}
    {rest : List Act} (hnothing : hub.postedBy endpoint act = [])
    (hrest : (hub.perform act).moved endpoint rest ++
      ((hub.perform act).run rest).pending endpoint = (hub.perform act).pending endpoint) :
    hub.moved endpoint (act :: rest) ++ (hub.run (act :: rest)).pending endpoint =
      hub.pending endpoint := by
  have hmoved := (moved_cons_iff h hbelow act rest []).mpr (hrest.trans (List.append_nil _).symm)
  rw [hmoved, hnothing, List.append_nil, List.append_nil]

/-- Nothing comes to an endpoint that no id addresses any more. -/
theorem moved_closed (h : hub.Faithful) (hbelow : endpoint < hub.next)
    (hclosed : ¬hub.Addressed endpoint) (acts : List Act) :
    hub.moved endpoint acts ++ (hub.run acts).pending endpoint = hub.pending endpoint := by
  induction acts generalizing hub with
  | nil => rfl
  | cons act rest ih =>
      have hnothing : hub.postedBy endpoint act = [] := by
        cases act with
        | publish message now recipients =>
            exact if_neg fun ⟨id, _, hid⟩ => hclosed ⟨id, hid⟩
        | _ => rfl
      exact moved_cons_quiet h hbelow hnothing (ih (h.perform act)
        (Nat.lt_of_lt_of_le hbelow (hub.next_perform act))
        (not_addressed_perform h hbelow hclosed act))

/-- Nothing comes to an endpoint once its id does not address it any more. -/
theorem moved_of_closing (h : hub.Faithful) (hid : hub.registry.find? id = some endpoint)
    (act : Act) (hgone : (hub.perform act).registry.find? id ≠ some endpoint)
    (hnothing : hub.postedBy endpoint act = []) (rest : List Act) :
    hub.moved endpoint (act :: rest) ++ (hub.run (act :: rest)).pending endpoint =
      hub.pending endpoint := by
  have hbelow := h.below hid
  have hclosed : ¬(hub.perform act).Addressed endpoint := by
    rintro ⟨other, hother⟩
    have howner := (h.perform act).owner hother
    rw [owner_perform h hbelow, h.owner hid, Option.some.injEq] at howner
    exact hgone (howner ▸ hother)
  exact moved_cons_quiet h hbelow hnothing (moved_closed (h.perform act)
    (Nat.lt_of_lt_of_le hbelow (hub.next_perform act)) hclosed rest)

/-- While an id addresses an endpoint, what is published to the id waits there. -/
theorem postedBy_publish (h : hub.Faithful) (hid : hub.registry.find? id = some endpoint)
    (message : Message) (now : Nat) (recipients : DeviceSet) :
    hub.postedBy endpoint (.publish message now recipients) =
      if id ∈ recipients.toList then [message] else [] := by
  refine if_congr ⟨?_, fun hmem => ⟨id, hmem, hid⟩⟩ rfl rfl
  rintro ⟨other, hmem, hother⟩
  have howner := h.owner hother
  rw [h.owner hid, Option.some.injEq] at howner
  rwa [howner]

/-- The endpoint that an id addresses moves what the id is told, in order and once, exactly if no
older endpoint of the id is given up before the last message to it. -/
theorem moved_told_iff (h : hub.Faithful) (hid : hub.registry.find? id = some endpoint)
    (acts : List Act) :
    hub.moved endpoint acts ++ (hub.run acts).pending endpoint =
        hub.pending endpoint ++ told id endpoint acts ↔ hub.spares id endpoint acts := by
  induction acts generalizing hub with
  | nil => simp [moved, run, told, spares]
  | cons act rest ih =>
      have hcontinue : (hub.perform act).registry.find? id = some endpoint →
          (hub.moved endpoint (act :: rest) ++ (hub.run (act :: rest)).pending endpoint =
            hub.pending endpoint ++ (hub.postedBy endpoint act ++ told id endpoint rest) ↔
              (hub.perform act).spares id endpoint rest) := fun hkept =>
        (moved_cons_iff h (h.below hid) act rest _).trans (ih (h.perform act) hkept)
      cases act with
      | join other =>
          have hfound : (hub.join other).registry.find? id =
              if id = other then some hub.next else hub.registry.find? id :=
            Dict.find?_insert _ _ _ _
          by_cases hother : other = id
          · have hgone : (hub.join other).registry.find? id ≠ some endpoint := by
              rw [hfound, if_pos hother.symm]
              simpa using Nat.ne_of_gt (h.below hid)
            rw [moved_of_closing h hid (.join other) hgone rfl]
            simp [told, spares, hother]
          · have hkept : (hub.join other).registry.find? id = some endpoint := by
              rw [hfound, if_neg (Ne.symm hother), hid]
            have htold : told id endpoint (.join other :: rest) = told id endpoint rest :=
              if_neg hother
            have hspares : hub.spares id endpoint (.join other :: rest) =
                (hub.join other).spares id endpoint rest := by simp [spares, hother]
            rw [htold, hspares]
            exact hcontinue hkept
      | drop number =>
          have hfound := h.registry_drop number id
          by_cases hown : number = endpoint
          · have hgone : (hub.drop number).registry.find? id ≠ some endpoint := by
              rw [hfound, hown, if_pos (h.owner hid)]
              exact nofun
            rw [moved_of_closing h hid (.drop number) hgone rfl]
            simp [told, spares, hown]
          · by_cases howner : hub.owner? number = some id
            · have hgone : (hub.drop number).registry.find? id ≠ some endpoint := by
                rw [hfound, if_pos howner]
                exact nofun
              rw [moved_of_closing h hid (.drop number) hgone rfl]
              simp [told, spares, hown, howner]
            · have hkept : (hub.drop number).registry.find? id = some endpoint := by
                rw [hfound, if_neg howner, hid]
              have htold : told id endpoint (.drop number :: rest) = told id endpoint rest :=
                if_neg hown
              have hspares : hub.spares id endpoint (.drop number :: rest) =
                  (hub.drop number).spares id endpoint rest := by simp [spares, hown, howner]
              rw [htold, hspares]
              exact hcontinue hkept
      | publish message now recipients =>
          have hkept : (hub.perform (.publish message now recipients)).registry.find? id =
              some endpoint := by
            rw [h.publish_hub]
            exact hid
          rw [told, ← postedBy_publish h hid message now]
          exact hcontinue hkept
      | collect number now => exact hcontinue hid

theorem pending_collect (hub : Hub) (endpoint now : Nat) :
    (hub.collect endpoint now).pending endpoint = [] := by
  rw [pending, collect, find?_update, if_pos rfl]
  cases hub.endpoints.find? endpoint <;> rfl

/-- Once an endpoint has collected, it holds the last message that waited from each sender, or
what it held before if none did. -/
theorem held_collect (hub : Hub) (endpoint now : Nat) (sender : DeviceId) :
    (hub.collect endpoint now).held endpoint sender =
      (((hub.pending endpoint).filter (·.sender = sender)).getLast?.map (⟨·, now⟩)).or
        (hub.held endpoint sender) := by
  rw [held, collect, find?_update, if_pos rfl, held, pending]
  cases hub.endpoints.find? endpoint with
  | none => rfl
  | some e => exact e.table.find?_storeAll e.queue now sender

/-- Whatever happened before an id was joined and whatever has happened since: what the new
endpoint has moved into its table and what still waits for it are the messages that its id was told
while it was the last one to join under it and was not given up, in order and each once, and with
its next collect it has moved them all. This is so unless an older endpoint of the id was given up
before the last of the messages. -/
theorem collects_what_was_told (staleness : Nat) (earlier : List Act) (id : DeviceId)
    (since : List Act) :
    let before := (empty .queued staleness).run earlier
    let start := before.join id
    let hub := start.run since
    start.spares id before.next since →
    start.moved before.next since ++ hub.pending before.next = told id before.next since ∧
    ∀ now, start.moved before.next (since ++ [.collect before.next now]) =
        told id before.next since ∧
      (hub.collect before.next now).pending before.next = [] ∧
      ∀ sender, (hub.collect before.next now).held before.next sender =
        (((hub.pending before.next).filter (·.sender = sender)).getLast?.map (⟨·, now⟩)).or
          (hub.held before.next sender) := by
  intro before start hub hspares
  have hfaithful : start.Faithful := ((Faithful.empty staleness).run earlier).join id
  have hid : start.registry.find? id = some before.next := Dict.find?_insert_self _ _ _
  have hnothing : start.pending before.next = [] := by
    rw [pending, find?_join, if_pos rfl]
    rfl
  have hlaw := (moved_told_iff hfaithful hid since).mpr hspares
  rw [hnothing, List.nil_append] at hlaw
  refine ⟨hlaw, fun now => ⟨?_, hub.pending_collect _ _, hub.held_collect _ _⟩⟩
  rw [moved_append, moved, moved, movedBy, if_pos rfl, List.append_nil]
  exact hlaw

/-- A message of the first device. -/
def word (round : Nat) : Message :=
  ⟨⟨"a"⟩, UInt64.ofNat round, .ofMillis 0, .ofPuts [] (.number (.ofNat round))⟩

/-- The second device has joined again. It is told something, and something more before its older
endpoint is given up. -/
def handedOver : List Act :=
  [.publish (word 0) 0 (.ofList [⟨"a"⟩, ⟨"b"⟩]), .collect 2 0, .publish (word 1) 0 (.ofList [⟨"b"⟩]),
    .drop 1]

theorem handedOver_collects :
    let start := ((empty .queued 2000).run [.join ⟨"a"⟩, .join ⟨"b"⟩]).join ⟨"b"⟩
    start.moved 2 handedOver = [word 0] ∧ ∀ now,
      start.moved 2 (handedOver ++ [.collect 2 now]) = [word 0, word 1] ∧
        ((start.run handedOver).collect 2 now).held 2 ⟨"a"⟩ = some ⟨word 1, now⟩ := by
  intro start
  have hspares : start.spares ⟨"b"⟩ 2 handedOver := by decide +kernel
  obtain ⟨-, hcollected⟩ := collects_what_was_told 2000 [.join ⟨"a"⟩, .join ⟨"b"⟩] ⟨"b"⟩ handedOver
    hspares
  refine ⟨rfl, fun now => ?_⟩
  obtain ⟨hmoved, -, hheld⟩ := hcollected now
  exact ⟨hmoved, hheld ⟨"a"⟩⟩

/-- The same with the older endpoint given up before the second device is told anything. -/
def cutOff : List Act := [.drop 1, .publish (word 0) 0 (.ofList [⟨"b"⟩])]

/-- The new endpoint is there, and a direct hub writes into its table, but over a queued hub it
gets nothing. -/
theorem cutOff_collects_nothing :
    let joined := [.join ⟨"a"⟩, .join ⟨"b"⟩]
    let start := ((empty .queued 2000).run joined).join ⟨"b"⟩
    let direct := (((empty .direct 2000).run joined).join ⟨"b"⟩).run cutOff
    ((start.run cutOff).endpoints.find? 2).map Endpoint.held = some true ∧
      (direct.held 2 ⟨"a"⟩).isSome ∧
      start.moved 2 (cutOff ++ [.collect 2 0]) ≠ told ⟨"b"⟩ 2 cutOff := by
  refine ⟨by decide +kernel, by decide +kernel, fun heq => ?_⟩
  have hlength := congrArg List.length heq
  revert hlength
  decide +kernel

end Hub

end FieldCalculus
