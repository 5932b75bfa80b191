import FieldCalculus.Proofs.Hub

/-!
What stands at the endpoints of a hub, whichever way it delivers. A property of endpoints
that survives the arrival of a message survives every publication, and apart from what the
endpoints hold a publication changes nothing.
-/

namespace FieldCalculus

namespace NeighborTable

variable {t : NeighborTable} {now : Nat} {sender : DeviceId}

theorem find?_evictStale (t : NeighborTable) (now : Nat) (sender : DeviceId) :
    (t.evictStale now).entries.find? sender = t.fresh? sender now :=
  Dict.find?_filter _ _ _

/-- What a lookup finds after messages came in is one of them or was there before. -/
theorem mem_or_find?_storeAll {messages : List Message} {arrival : Arrival}
    (h : (t.storeAll messages now).entries.find? sender = some arrival) :
    (arrival.message ∈ messages ∧ arrival.message.sender = sender ∧ arrival.receivedAt = now) ∨
      t.entries.find? sender = some arrival := by
  induction messages generalizing t with
  | nil => exact Or.inr h
  | cons message rest ih =>
      rcases ih h with ⟨hmem, hnew⟩ | hstored
      · exact Or.inl ⟨List.mem_cons_of_mem _ hmem, hnew⟩
      · rw [find?_store] at hstored
        split at hstored
        · rename_i heq
          cases hstored
          exact Or.inl ⟨List.mem_cons_self, heq.symm, rfl⟩
        · exact Or.inr hstored

@[simp] theorem staleness_storeAll (t : NeighborTable) (messages : List Message) (now : Nat) :
    (t.storeAll messages now).staleness = t.staleness := by
  induction messages generalizing t with
  | nil => rfl
  | cons message rest ih => exact ih (t.store message now)

/-- The exports of a snapshot come from fresh entries of those asked for. -/
theorem fresh_of_find?_snapshot {ids : List DeviceId} {exported : Export}
    (h : (t.snapshot ids now).find? sender = some exported) :
    sender ∈ ids ∧ ∃ arrival, t.fresh? sender now = some arrival ∧
      arrival.message.exported = exported := by
  rw [find?_snapshot] at h
  split at h
  · rename_i hmem
    rw [latest?, Option.map_map, Option.map_eq_some_iff] at h
    obtain ⟨arrival, hfresh, hexported⟩ := h
    exact ⟨hmem, arrival, hfresh, hexported⟩
  · cases h

end NeighborTable

/-- An endpoint that a message has reached. -/
def Endpoint.reach (delivery : Delivery) (message : Message) (now : Nat) (e : Endpoint) :
    Endpoint :=
  match delivery with
  | .direct => { e with table := e.table.store message now }
  | .queued => { e with queue := e.queue ++ [message] }

namespace Hub

variable {hub next : Hub} {good : Nat → Endpoint → Prop}

/-- Every endpoint of the hub has a property, which may depend on its number. -/
def Each (hub : Hub) (good : Nat → Endpoint → Prop) : Prop :=
  ∀ number e, hub.endpoints.find? number = some e → good number e

/-- The hubs have the same endpoints, which may hold different things. -/
structure Alike (hub next : Hub) : Prop where
  delivery : next.delivery = hub.delivery
  staleness : next.staleness = hub.staleness
  numbering : next.next = hub.next
  present : ∀ number,
    (next.endpoints.find? number).isSome = (hub.endpoints.find? number).isSome

namespace Alike

theorem refl (hub : Hub) : hub.Alike hub := ⟨rfl, rfl, rfl, fun _ => rfl⟩

theorem trans {last : Hub} (h : hub.Alike next) (hlast : next.Alike last) : hub.Alike last :=
  ⟨hlast.delivery.trans h.delivery, hlast.staleness.trans h.staleness,
    hlast.numbering.trans h.numbering, fun number => (hlast.present number).trans (h.present number)⟩

theorem update (hub : Hub) (endpoint : Nat) (change : Endpoint → Endpoint) :
    hub.Alike (hub.update endpoint change) := by
  refine ⟨rfl, rfl, rfl, ?_⟩
  exact fun number => Dict.isSome_find?_modify _ _ _ _

end Alike

theorem Each.update (h : hub.Each good) {endpoint : Nat} {change : Endpoint → Endpoint}
    (hchange : ∀ e, good endpoint e → good endpoint (change e)) :
    (hub.update endpoint change).Each good := by
  intro number e he
  rw [find?_update] at he
  split at he
  · rename_i heq
    obtain ⟨before, hbefore, rfl⟩ := Option.map_eq_some_iff.mp he
    rw [heq]
    exact hchange before (h endpoint before hbefore)
  · exact h number e he

/-! ## Publications -/

theorem deliver_cases {message : Message} {now : Nat} {recipient : DeviceId} {stored : Nat}
    (h : hub.deliver message now recipient = .ok (next, stored)) :
    next = hub ∨ ∃ endpoint, hub.registry.find? recipient = some endpoint ∧
      next = hub.update endpoint (Endpoint.reach hub.delivery message now) := by
  unfold deliver at h
  cases hfound : hub.registry.find? recipient with
  | none =>
      rw [hfound] at h
      cases h
      exact Or.inl rfl
  | some endpoint =>
      rw [hfound] at h
      refine Or.inr ⟨endpoint, rfl, ?_⟩
      cases hdelivery : hub.delivery with
      | direct =>
          rw [hdelivery] at h
          cases h
          rfl
      | queued =>
          rw [hdelivery] at h
          dsimp only at h
          split at h
          · cases h
            rfl
          · cases h

theorem publish_alike (hub : Hub) (message : Message) (now : Nat) (recipients : List DeviceId) :
    hub.Alike (hub.publish message now recipients).hub := by
  induction recipients generalizing hub with
  | nil => exact .refl hub
  | cons recipient rest ih =>
      rw [publish]
      split
      · exact .refl hub
      · rename_i next stored hdeliver
        refine Alike.trans ?_ (ih next)
        rcases deliver_cases hdeliver with rfl | ⟨endpoint, -, rfl⟩
        · exact .refl _
        · exact .update hub endpoint _

/-- A publication keeps what the arrival of its message keeps. -/
theorem Each.publish (h : hub.Each good) {message : Message} {now : Nat}
    (hreach : ∀ number e, good number e →
      good number (Endpoint.reach hub.delivery message now e))
    (recipients : List DeviceId) : (hub.publish message now recipients).hub.Each good := by
  induction recipients generalizing hub with
  | nil => exact h
  | cons recipient rest ih =>
      rw [Hub.publish]
      split
      · exact h
      · rename_i next stored hdeliver
        rcases deliver_cases hdeliver with rfl | ⟨endpoint, -, rfl⟩
        · exact ih h hreach
        · exact ih (h.update fun e he => hreach endpoint e he) hreach

end Hub

end FieldCalculus
