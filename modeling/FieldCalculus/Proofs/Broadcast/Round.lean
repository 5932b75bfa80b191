import FieldCalculus.Proofs.HopGradient.Round

/-!
The broadcast round by round. Hops and payload travel together: a device tells its neighbors the
pair of its last round, once for the hops and once for the payload, and goes on from the nearest
pair that it was told. It takes part from its second round on, and only then is a source one.
-/

namespace FieldCalculus.Broadcast

open HopGradient (hopValue valuePath foldPath toldPath call_add_one eval_one sense_root)

/-- A number of hops and the source that they lead to, if any. -/
structure Relay where
  hops : ℕ∞
  origin : Option DeviceId

namespace Relay

/-- What a source yields: its id. -/
def payload (r : Relay) : Value :=
  match r.origin with
  | some origin => .text origin.name
  | none => .unit

def value (r : Relay) : Value := .tuple [hopValue r.hops, r.payload]

/-- No source is known. -/
def unreached : Relay := ⟨⊤, none⟩

def atSource (id : DeviceId) : Relay := ⟨0, some id⟩

def further (r : Relay) : Relay := ⟨r.hops + 1, r.origin⟩

/-- The one with fewer hops, as far as numbers can tell; the left one of equals. -/
def closer (a b : Relay) : Relay :=
  if Number.wordOfHops a.hops ≤ Number.wordOfHops b.hops then a else b

/-- What a device goes on from that was told some. -/
def nearest (told : List Relay) : Relay :=
  told.foldl (fun best r => best.closer r.further) unreached

theorem closer_eq (a b : Relay) : a.closer b = a ∨ a.closer b = b := by
  unfold closer
  split
  · exact Or.inl rfl
  · exact Or.inr rfl

variable {told : List Relay}

theorem nearest_concat (told : List Relay) (r : Relay) :
    nearest (told ++ [r]) = (nearest told).closer r.further :=
  List.foldl_concat ..

/-- The hops of the nearest and its payload are those of one and the same. -/
theorem nearest_eq (told : List Relay) :
    nearest told = unreached ∨ ∃ r ∈ told, nearest told = r.further := by
  induction told using List.reverseRecOn with
  | nil => exact Or.inl rfl
  | append_singleton told r ih =>
      rw [nearest_concat]
      rcases (nearest told).closer_eq r.further with heq | heq <;> rw [heq]
      · rcases ih with hnone | ⟨other, hother, hsame⟩
        · exact Or.inl hnone
        · exact Or.inr ⟨other, List.mem_append_left _ hother, hsame⟩
      · exact Or.inr ⟨r, List.mem_append_right _ List.mem_cons_self, rfl⟩

/-- Where numbers count exactly, they compare as what they count. -/
theorem hops_le_of_word_le {a : ℕ∞} {d : ℕ} (hd : d < 2 ^ 53)
    (h : Number.wordOfHops a ≤ Number.wordOfHops d) : a ≤ d := by
  by_contra hnot
  have hnext : ((d + 1 : ℕ) : ℕ∞) ≤ a := by
    rw [Nat.cast_add, Nat.cast_one]
    exact Order.add_one_le_of_lt (lt_of_not_ge hnot)
  have hless : Number.wordOfHops d < Number.wordOfHops (d + 1 : ℕ) :=
    Number.wordOfHops_lt_succ hd
  exact absurd (hless.trans_le (Number.wordOfHops_mono hnext)) (Nat.not_lt_of_le h)

theorem closer_hops_le {a b : Relay} {d : ℕ} (hd : d < 2 ^ 53) (h : a.hops ≤ d ∨ b.hops ≤ d) :
    (a.closer b).hops ≤ d := by
  unfold closer
  split
  · rename_i hle
    rcases h with ha | hb
    · exact ha
    · exact hops_le_of_word_le hd (hle.trans (Number.wordOfHops_mono hb))
  · rename_i hgt
    rcases h with ha | hb
    · exact hops_le_of_word_le hd ((Nat.le_of_not_le hgt).trans (Number.wordOfHops_mono ha))
    · exact hb

/-- The nearest is no further than anything told, one hop more. -/
theorem nearest_hops_le {r : Relay} {d : ℕ} (hd : d < 2 ^ 53) (hr : r ∈ told)
    (h : r.further.hops ≤ d) : (nearest told).hops ≤ d := by
  induction told using List.reverseRecOn with
  | nil => cases hr
  | append_singleton told latest ih =>
      rw [nearest_concat]
      rcases List.mem_append.mp hr with hbefore | hlatest
      · exact closer_hops_le hd (Or.inl (ih hbefore))
      · rw [List.mem_singleton.mp hlatest] at h
        exact closer_hops_le hd (Or.inr h)

end Relay

/-- Where a device tells its pair a second time, for the payload. -/
def toldAgainPath : Path := [.rep 0, .foldHood 0, .nbr 1]

/-- What a device sends after its first round. -/
def firstExport : Export := .ofPuts [(valuePath, Relay.unreached.value)] .unit

/-- What a device sends after a later round. -/
def laterExport (here heard told : Relay) : Export :=
  .ofPuts [(toldPath, told.value), (toldAgainPath, told.value), (foldPath, heard.value),
    (valuePath, here.value)] here.payload

/-! ## The fold over the neighbors -/

section Fold

open Eval

variable {ctx : Context}

/-- No source, as a program. -/
def unreached : Expr := .call .tuple [Library.infinity, .literal .unit]

/-- What the fold asks of each neighbor: its last pair, one hop further. -/
def relayed : Expr := .call .tuple
  [Library.plus (Library.item (.nbr (.var "g")) 0) (.number (.ofNat 1)),
    Library.item (.nbr (.var "g")) 1]

theorem call_get_hops (r : Relay) :
    Builtin.get.call [r.value, .number (.ofNat 0)] = .ok (hopValue r.hops) := by
  have hindex : (Number.ofNat 0).toNat? = some 0 := by decide +kernel
  change Builtin.item r.value (.number (.ofNat 0)) = _
  simp only [Builtin.item, Relay.value, Value.asTuple, Value.asNumber, bind, Except.bind, hindex]
  rfl

theorem call_get_payload (r : Relay) :
    Builtin.get.call [r.value, .number (.ofNat 1)] = .ok r.payload := by
  have hindex : (Number.ofNat 1).toNat? = some 1 := by decide +kernel
  change Builtin.item r.value (.number (.ofNat 1)) = _
  simp only [Builtin.item, Relay.value, Value.asTuple, Value.asNumber, bind, Except.bind, hindex]
  rfl

theorem eval_unreached (depth slots : Nat) :
    eval (depth + 2) unreached ctx slots = .ok ⟨Relay.unreached.value, slots, []⟩ := by
  have hargs : evalAll (eval (depth + 1)) ctx [Library.infinity, .literal .unit] slots =
      .ok ⟨[hopValue ⊤, .unit], slots, []⟩ := rfl
  exact eval_call_ok hargs rfl

/-- The items of a pair that stands behind a program without effects. -/
theorem eval_item_hops {depth slots : Nat} {body : Expr} {r : Relay} {opened : Nat}
    {puts : List (Path × Value)}
    (hbody : eval (depth + 1) body ctx slots = .ok ⟨r.value, opened, puts⟩) :
    eval (depth + 2) (Library.item body 0) ctx slots = .ok ⟨hopValue r.hops, opened, puts⟩ := by
  have hindex : eval (depth + 1) (.number (.ofNat 0)) ctx opened =
      .ok ⟨.number (.ofNat 0), opened, []⟩ := rfl
  have hitem := eval_call_ok (evalAll_cons_ok hbody (evalAll_singleton_ok hindex)) (call_get_hops r)
  rw [List.append_nil] at hitem
  exact hitem

theorem eval_item_payload {depth slots : Nat} {body : Expr} {r : Relay} {opened : Nat}
    {puts : List (Path × Value)}
    (hbody : eval (depth + 1) body ctx slots = .ok ⟨r.value, opened, puts⟩) :
    eval (depth + 2) (Library.item body 1) ctx slots = .ok ⟨r.payload, opened, puts⟩ := by
  have hindex : eval (depth + 1) (.number (.ofNat 1)) ctx opened =
      .ok ⟨.number (.ofNat 1), opened, []⟩ := rfl
  have hitem :=
    eval_call_ok (evalAll_cons_ok hbody (evalAll_singleton_ok hindex)) (call_get_payload r)
  rw [List.append_nil] at hitem
  exact hitem

/-- A pair that is read twice, for the hops and for the payload. -/
theorem eval_relayed {depth : Nat} {r : Relay} {first second : List (Path × Value)}
    (hfirst : eval (depth + 3) (.nbr (.var "g")) ctx 0 = .ok ⟨r.value, 1, first⟩)
    (hsecond : eval (depth + 4) (.nbr (.var "g")) ctx 1 = .ok ⟨r.value, 2, second⟩) :
    eval (depth + 6) relayed ctx 0 = .ok ⟨r.further.value, 2, first ++ second⟩ := by
  have hhops := eval_item_hops hfirst
  have hplus : eval (depth + 5) (Library.plus (Library.item (.nbr (.var "g")) 0)
      (.number (.ofNat 1))) ctx 0 = .ok ⟨hopValue (r.hops + 1), 1, first⟩ := by
    have hsum := eval_call_ok (evalAll_cons_ok hhops (evalAll_singleton_ok (eval_one _ _)))
      (call_add_one r.hops)
    rw [List.append_nil] at hsum
    exact hsum
  have hpayload := eval_item_payload hsecond
  exact eval_call_ok (evalAll_cons_ok hplus (evalAll_singleton_ok hpayload)) rfl

/-- The device itself tells its last pair, at whatever slot. -/
theorem eval_tells (depth slots : Nat) {last : Relay} (hfocus : ctx.focus = .self)
    (hrecording : ctx.recording = true) (hlast : ctx.lookup "g" = .ok last.value) :
    eval (depth + 2) (.nbr (.var "g")) ctx slots = .ok ⟨last.value, slots + 1,
      [(ctx.path.push (.nbr (UInt32.ofNat slots)), last.value)]⟩ := by
  have hvar : eval (depth + 1) (.var "g") (ctx.nest (.nbr (UInt32.ofNat slots))) 0 =
      .ok ⟨last.value, 0, []⟩ := eval_var_ok hlast
  have htold : eval (depth + 2) (.nbr (.var "g")) ctx slots = _ := eval_nbr_self_ok hfocus hvar
  rw [hrecording] at htold
  exact htold

theorem eval_relayed_self (depth : Nat) {last : Relay} (hfocus : ctx.focus = .self)
    (hrecording : ctx.recording = true) (hlast : ctx.lookup "g" = .ok last.value) :
    eval (depth + 6) relayed ctx 0 = .ok ⟨last.further.value, 2,
      [(ctx.path.push (.nbr 0), last.value), (ctx.path.push (.nbr 1), last.value)]⟩ := by
  have hfirst := eval_tells (depth + 1) 0 hfocus hrecording hlast
  have hsecond := eval_tells (depth + 2) 1 hfocus hrecording hlast
  have hslots : UInt32.ofNat 0 = 0 ∧ UInt32.ofNat 1 = 1 := ⟨rfl, rfl⟩
  rw [hslots.1] at hfirst
  rw [hslots.2] at hsecond
  exact eval_relayed hfirst hsecond

/-- A neighbor in focus has told its own. -/
theorem eval_relayed_neighbor (depth : Nat) {id : DeviceId} {exported : Export} {r : Relay}
    (htold : exported.get? (ctx.path.push (.nbr 0)) = some r.value)
    (hagain : exported.get? (ctx.path.push (.nbr 1)) = some r.value) :
    eval (depth + 6) relayed (ctx.focusedOn id exported) 0 =
      .ok ⟨r.further.value, 2, []⟩ := by
  have hfirst : eval (depth + 3) (.nbr (.var "g")) (ctx.focusedOn id exported) 0 =
      .ok ⟨r.value, 1, []⟩ := eval_nbr_neighbor_ok rfl htold
  have hsecond : eval (depth + 4) (.nbr (.var "g")) (ctx.focusedOn id exported) 1 =
      .ok ⟨r.value, 2, []⟩ := eval_nbr_neighbor_ok rfl hagain
  exact eval_relayed hfirst hsecond

/-- The choice between two pairs, where the variables stand for them. -/
def choice : Expr :=
  .call .mux [.call .le [Library.item (.var "a") 0, Library.item (.var "b") 0], .var "a", .var "b"]

theorem eval_choice (depth : Nat) {a b : Relay} (ha : ctx.lookup "a" = .ok a.value)
    (hb : ctx.lookup "b" = .ok b.value) :
    eval (depth + 6) choice ctx 0 = .ok ⟨(a.closer b).value, 0, []⟩ := by
  have hle : Builtin.le.call [hopValue a.hops, hopValue b.hops] =
      .ok (.bool ((Number.ofHops a.hops).totalOrder (.ofHops b.hops)).isLE) := by
    change Except.ok _ = _
    cases (Number.ofHops a.hops).totalOrder (.ofHops b.hops) <;> rfl
  have hfirst : eval (depth + 4) (Library.item (.var "a") 0) ctx 0 = .ok ⟨hopValue a.hops, 0, []⟩ :=
    eval_item_hops (eval_var_ok ha)
  have hsecond : eval (depth + 4) (Library.item (.var "b") 0) ctx 0 =
      .ok ⟨hopValue b.hops, 0, []⟩ := eval_item_hops (eval_var_ok hb)
  have htest : eval (depth + 5) (.call .le [Library.item (.var "a") 0, Library.item (.var "b") 0])
      ctx 0 = .ok ⟨.bool ((Number.ofHops a.hops).totalOrder (.ofHops b.hops)).isLE, 0, []⟩ :=
    eval_call_ok (evalAll_cons_ok hfirst (evalAll_singleton_ok hsecond)) hle
  have hleft : eval (depth + 5) (.var "a") ctx 0 = .ok ⟨a.value, 0, []⟩ := eval_var_ok ha
  have hright : eval (depth + 5) (.var "b") ctx 0 = .ok ⟨b.value, 0, []⟩ := eval_var_ok hb
  refine eval_call_ok (evalAll_cons_ok htest (evalAll_cons_ok hleft (evalAll_singleton_ok hright))) ?_
  have hword := Number.isLE_totalOrder_ofHops a.hops b.hops
  unfold Relay.closer
  split
  · rename_i hnear
    rw [hword.mpr hnear]
    rfl
  · rename_i hfar
    rw [Bool.eq_false_iff.mpr fun hnear => hfar (hword.mp hnear)]
    rfl

/-- The accumulator keeps the closer pair, wherever it was captured. -/
theorem applyTo_closer (depth : Nat) (code : CodeId) (env : Env) (a b : Relay) :
    applyTo (eval (depth + 6)) (.closure code ["a", "b"] choice env) [a.value, b.value] ctx 0 =
      .ok ⟨(a.closer b).value, 1, []⟩ := by
  let inner := (ctx.nest (.funCall (UInt32.ofNat 0) code)).withEnv
    (Entries.insertAll env [("a", a.value), ("b", b.value)])
  have hb : inner.lookup "b" = .ok b.value := by
    have hfound : Entries.find? "b" inner.env = some b.value := Entries.find?_insert_self ..
    rw [Context.lookup, hfound]
  have ha : inner.lookup "a" = .ok a.value := by
    have hfound : Entries.find? "a" inner.env = some a.value :=
      (Entries.find?_insert_ne (by decide) _ _).trans (Entries.find?_insert_self ..)
    rw [Context.lookup, hfound]
  have hchosen := inside_of_ok (eval_choice depth ha hb) 1
  rw [applyTo_closure, if_neg (by simp), bind_run (nextSlot_run 0)]
  exact congrArg (Except.map fun y : Yield Value => { y with puts := [] ++ y.puts }) hchosen

/-- The fold of a device that tells `last` goes on from the nearest of what it hears. -/
theorem eval_fold (depth : Nat) {last : Relay} {told : List Relay}
    (hrecording : ctx.recording = true) (hlast : ctx.lookup "g" = .ok last.value)
    (htold : List.Forall₂ (fun entry r =>
      entry.2.get? ((ctx.path.push (.foldHood 0)).push (.nbr 0)) = some r.value ∧
        entry.2.get? ((ctx.path.push (.foldHood 0)).push (.nbr 1)) = some r.value)
      (ctx.nest (.foldHood 0)).alignedNeighbors told) :
    eval (depth + 7) (.foldPlus unreached Library.closer relayed) ctx 0 =
      .ok ⟨(Relay.nearest told).value, 1,
        [((ctx.path.push (.foldHood 0)).push (.nbr 0), last.value),
          ((ctx.path.push (.foldHood 0)).push (.nbr 1), last.value),
          (ctx.path.push (.foldHood 0), (Relay.nearest told).value)]⟩ := by
  have hinitial : eval (depth + 6) unreached ctx 0 = .ok ⟨Relay.unreached.value, 0, []⟩ :=
    eval_unreached (depth + 4) 0
  have hcombine : eval (depth + 6) Library.closer ctx 0 =
      .ok ⟨.closure (.ofContent ["a", "b"] choice) ["a", "b"] choice ctx.env, 0, []⟩ := rfl
  have hself : eval (depth + 6) relayed (ctx.nest (.foldHood 0)).toSelf 0 =
      .ok ⟨last.further.value, 2, [((ctx.path.push (.foldHood 0)).push (.nbr 0), last.value),
        ((ctx.path.push (.foldHood 0)).push (.nbr 1), last.value)]⟩ :=
    eval_relayed_self depth rfl hrecording hlast
  have hstart : foldStart (eval (depth + 6)) (ctx.nest (.foldHood 0))
      (.closure (.ofContent ["a", "b"] choice) ["a", "b"] choice ctx.env) Relay.unreached.value
      last.further.value false 1 = .ok ⟨Relay.unreached.value, 1, []⟩ := rfl
  have hcloser : ∀ best r : Relay, ∃ opened, applyTo (eval (depth + 6))
      (.closure (.ofContent ["a", "b"] choice) ["a", "b"] choice ctx.env)
      [best.value, r.further.value] (ctx.nest (.foldHood 0)).silent 0 =
        .ok ⟨(best.closer r.further).value, opened, []⟩ :=
    fun best r => ⟨1, applyTo_closer depth _ _ best r.further⟩
  have hheard : List.Forall₂ (fun entry (r : Relay) => ∃ opened, eval (depth + 6) relayed
      ((ctx.nest (.foldHood 0)).toSelf.focusedOn entry.1 entry.2) 0 =
        .ok ⟨r.further.value, opened, []⟩) (ctx.nest (.foldHood 0)).alignedNeighbors told :=
    htold.imp fun _ _ hentry => ⟨2, eval_relayed_neighbor depth hentry.1 hentry.2⟩
  have hfold := eval_neighborFold_ok hinitial hcombine hself hstart
    (foldNeighbors_ok hcloser hheard Relay.unreached)
  rw [hrecording] at hfold
  exact hfold

end Fold

/-! ## Whole rounds -/

section Round

open Eval

variable {inputs : RoundInputs} {source : String} {isSource : Bool}

/-- What a device with a pair goes on with. -/
def update (source : String) : Expr := .call .mux
  [.sense source, .call .tuple [.number (.ofNat 0), .selfId],
    .foldPlus unreached Library.closer relayed]

/-- What a device comes to that heard something. -/
def settle (isSource : Bool) (id : DeviceId) (heard : Relay) : Relay :=
  if isSource then .atSource id else heard

theorem eval_update (depth : Nat) {ctx : Context} {last : Relay} {told : List Relay}
    (hsource : ctx.sense source = .ok (.bool isSource)) (hrecording : ctx.recording = true)
    (hlast : ctx.lookup "g" = .ok last.value)
    (htold : List.Forall₂ (fun entry r =>
      entry.2.get? ((ctx.path.push (.foldHood 0)).push (.nbr 0)) = some r.value ∧
        entry.2.get? ((ctx.path.push (.foldHood 0)).push (.nbr 1)) = some r.value)
      (ctx.nest (.foldHood 0)).alignedNeighbors told) :
    eval (depth + 8) (update source) ctx 0 =
      .ok ⟨(settle isSource ctx.inputs.device (Relay.nearest told)).value, 1,
        [((ctx.path.push (.foldHood 0)).push (.nbr 0), last.value),
          ((ctx.path.push (.foldHood 0)).push (.nbr 1), last.value),
          (ctx.path.push (.foldHood 0), (Relay.nearest told).value)]⟩ := by
  have hreading : eval (depth + 7) (.sense source) ctx 0 = .ok ⟨.bool isSource, 0, []⟩ := by
    change located _ (ctx.sense source) 0 = _
    rw [hsource]
    rfl
  have hown : eval (depth + 7) (.call .tuple [.number (.ofNat 0), .selfId]) ctx 0 =
      .ok ⟨(Relay.atSource ctx.inputs.device).value, 0, []⟩ := by
    have hargs : evalAll (eval (depth + 6)) ctx [.number (.ofNat 0), .selfId] 0 =
        .ok ⟨[.number (.ofNat 0), .text ctx.inputs.device.name], 0, []⟩ := rfl
    exact eval_call_ok hargs rfl
  have hfold := eval_fold depth hrecording hlast htold
  refine eval_call_ok (evalAll_cons_ok hreading
    (evalAll_cons_ok hown (evalAll_singleton_ok hfold))) ?_
  cases isSource <;> rfl

/-- What a round yields and sends, given what stands behind its only `rep` slot. -/
theorem evaluate_of_repAt (here : Relay) (puts : List (Path × Value))
    (hvalue : repAt (eval 1048574) unreached "g" (update source)
      ((Context.root inputs).nest (.rep 0)) 1 = .ok ⟨here.value, 1, puts⟩) :
    evaluate (Library.broadcast source .selfId) inputs =
      .ok ⟨here.payload, .ofPuts (puts ++ [(valuePath, here.value)]) here.payload⟩ := by
  have hdepth : depthLimit = 1048574 + 2 := rfl
  have hrep : eval (1048574 + 1) (.rep unreached "g" (update source)) (.root inputs) 0 =
      .ok ⟨here.value, 1, puts ++ [(valuePath, here.value)]⟩ :=
    eval_rep_ok (y := ⟨here.value, 1, puts⟩) hvalue
  have heval : eval (1048574 + 2) (Library.broadcast source .selfId) (.root inputs) 0 =
      .ok ⟨here.payload, 1, puts ++ [(valuePath, here.value)]⟩ := eval_item_payload hrep
  rw [evaluate, evaluateIn, hdepth, heval]

/-- In its first round a device knows of no source, not even of itself. -/
theorem evaluate_first (hfresh : inputs.state.get? valuePath = none) :
    evaluate (Library.broadcast source .selfId) inputs = .ok ⟨.unit, firstExport⟩ := by
  have hremembered : ((Context.root inputs).nest (.rep 0)).remembered = none := hfresh
  refine evaluate_of_repAt .unreached [] ?_
  rw [repAt, hremembered]
  exact inside_of_ok (eval_unreached 1048572 0) 1

/-- A later round yields its own id at a source, and elsewhere the payload of the nearest pair
that the neighbors told. -/
theorem evaluate_later {last : Relay} {told : List Relay}
    (hsource : inputs.sensors.sense source = some (.bool isSource))
    (hlast : inputs.state.get? valuePath = some last.value)
    (htold : List.Forall₂ (fun entry r => entry.2.get? toldPath = some (Relay.value r) ∧
      entry.2.get? toldAgainPath = some r.value)
      (inputs.neighbors.entries.filter fun entry =>
        entry.1 ≠ inputs.device && entry.2.contains foldPath) told) :
    evaluate (Library.broadcast source .selfId) inputs =
      .ok ⟨(settle isSource inputs.device (Relay.nearest told)).payload,
        laterExport (settle isSource inputs.device (Relay.nearest told)) (Relay.nearest told)
          last⟩ := by
  have hremembered : ((Context.root inputs).nest (.rep 0)).remembered = some last.value := hlast
  have hsense : (((Context.root inputs).nest (.rep 0)).bind "g" last.value).sense source =
      .ok (.bool isSource) := sense_root hsource (.rep 0)
  have hupdate := eval_update 1048566 hsense rfl rfl htold
  refine evaluate_of_repAt (settle isSource inputs.device (Relay.nearest told))
    [(toldPath, last.value), (toldAgainPath, last.value), (foldPath, (Relay.nearest told).value)] ?_
  rw [repAt, hremembered]
  exact inside_of_ok hupdate 1

end Round

end FieldCalculus.Broadcast
