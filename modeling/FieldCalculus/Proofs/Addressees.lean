import FieldCalculus.Proofs.Mailbox

/-!
Whom a queued hub hands a message to. An id is reached at the endpoint that joined last under it,
and when any endpoint of the id is given up the id is taken off the hub's list before the endpoint
is gone. So the list never leads to an endpoint that is gone, no publication breaks off, and whether
a recipient gets a message is decided by what happened under its own id.
-/

namespace FieldCalculus.Hub

/-- Where an act says that an id is reached from now on: at a new endpoint or nowhere. Most acts say
nothing of it. -/
def verdict? (hub : Hub) (id : DeviceId) : Act → Option (Option Nat)
  | .join other => if other = id then some (some hub.next) else none
  | .drop endpoint => if hub.owner? endpoint = some id then some none else none
  | .publish .. => none
  | .collect .. => none

/-- All that acts say of an id, in order. -/
def verdicts (hub : Hub) (id : DeviceId) : List Act → List (Option Nat)
  | [] => []
  | act :: rest => (hub.verdict? id act).toList ++ (hub.perform act).verdicts id rest

/-- The endpoint at which an id is reached after acts on an empty hub, by the last that was said of
it: the last one that joined under the id, unless an endpoint of the id was given up since. -/
def reached? (staleness : Nat) (acts : List Act) (id : DeviceId) : Option Nat :=
  ((empty .queued staleness).verdicts id acts).getLast?.join

variable {hub : Hub} {id : DeviceId}

/-- What an act says of an id counts, and where it says nothing all is as before. -/
theorem registry_perform (h : hub.Faithful) (id : DeviceId) (act : Act) :
    (hub.perform act).registry.find? id =
      (hub.verdict? id act).getD (hub.registry.find? id) := by
  cases act with
  | join other =>
      refine (Dict.find?_insert _ _ _ _).trans ?_
      by_cases hother : other = id
      · simp [verdict?, hother]
      · simp [verdict?, hother, Ne.symm hother]
  | drop endpoint =>
      refine (h.registry_drop endpoint id).trans ?_
      by_cases howner : hub.owner? endpoint = some id <;> simp [verdict?, howner]
  | publish message now recipients =>
      rw [h.publish_hub]
      rfl
  | collect endpoint now => rfl

/-- The last that was said of an id counts. -/
theorem registry_run (h : hub.Faithful) (id : DeviceId) (acts : List Act) :
    (hub.run acts).registry.find? id =
      (hub.verdicts id acts).getLast?.getD (hub.registry.find? id) := by
  induction acts generalizing hub with
  | nil => rfl
  | cons act rest ih =>
      have hrest := ih (h.perform act)
      rw [registry_perform h] at hrest
      refine hrest.trans ?_
      rw [verdicts, List.getLast?_append]
      cases hub.verdict? id act <;>
        cases ((hub.perform act).verdicts id rest).getLast? <;> simp

theorem registry_eq_reached (staleness : Nat) (acts : List Act) (id : DeviceId) :
    ((empty .queued staleness).run acts).registry.find? id = reached? staleness acts id := by
  rw [registry_run (.empty staleness), reached?]
  cases ((empty .queued staleness).verdicts id acts).getLast? <;> rfl

/-- Whatever was joined, given up, published and collected before: a publication over a queued hub
meets no endpoint that is gone. Each id leads to an endpoint that joined under it and is still held,
if to any, and the message is put behind what waits there for each recipient, whoever else among the
recipients went away; nothing else changes in any queue. -/
theorem publication_reaches_all (staleness : Nat) (acts : List Act) (message : Message) (now : Nat)
    (recipients : DeviceSet) :
    let hub := (empty .queued staleness).run acts
    let published := hub.publish message now recipients.toList
    published.fault = none ∧
    (∀ id endpoint, reached? staleness acts id = some endpoint →
      ∃ e, hub.endpoints.find? endpoint = some e ∧ e.id = id ∧ e.held = true) ∧
    ∀ endpoint, published.hub.pending endpoint = hub.pending endpoint ++
      if ∃ id ∈ recipients.toList, reached? staleness acts id = some endpoint then [message]
      else [] := by
  intro hub published
  have hfaithful : hub.Faithful := (Faithful.empty staleness).run acts
  obtain ⟨hposted, hfault⟩ := hfaithful.publish message now recipients.ordered.nodup_keys
  refine ⟨hfault, ?_, ?_⟩
  · intro id endpoint hreached
    rw [← registry_eq_reached] at hreached
    exact hfaithful.addressed id endpoint hreached
  · intro endpoint
    simp only [← registry_eq_reached]
    exact (congrArg (pending · endpoint) hposted).trans
      (pending_post hfaithful message recipients.toList endpoint)

end FieldCalculus.Hub
