import FakeNetNG.OrderedDict
import FakeNetNG.Addresses

/-!
# Flows whose SYN was observed

The diverter keeps the TCP flows whose SYN it saw, the flows it took for older than
the capture, and for each observed SYN that was rewritten the tuples of the rewritten
connection. A tuple belongs to one SYN at a time: when another SYN takes it over, the
record of the earlier one is forgotten.
-/

namespace FakeNetNG

structure FlowTuple where
  srcIp : Addr
  sport : ℕ
  dstIp : Addr
  dport : ℕ
  deriving DecidableEq

def FlowTuple.reverse (t : FlowTuple) : FlowTuple := ⟨t.dstIp,t.dport,t.srcIp,t.sport⟩

/-- `_syn_observed_flows`, `_midstream_bypass_flows`, `_observed_nat_tuples`,
`_observed_nat_owners` and `_observed_nat_forward`. -/
structure FlowRecords where
  synObserved : Finset FlowTuple
  midstreamBypass : Finset FlowTuple
  natTuples : Dict FlowTuple (List FlowTuple)
  natOwners : Dict FlowTuple FlowTuple
  natForward : Finset FlowTuple

namespace FlowRecords

def empty : FlowRecords := ⟨∅,∅,Dict.empty,Dict.empty,∅⟩

/-- One round of the loop of `_forget_observed_nat`. -/
def forgetKey (original : FlowTuple) (f : FlowRecords) (key : FlowTuple) : FlowRecords :=
  if f.natOwners.get? key = some original then
    { f with
      natOwners := f.natOwners.pop key
      synObserved := f.synObserved.erase key
      natForward := f.natForward.erase key }
  else f

def forgetObservedNat (original : FlowTuple) (f : FlowRecords) : FlowRecords :=
  let keys := (f.natTuples.get? original).getD []
  let f := { f with natTuples := f.natTuples.pop original }
  let f := if keys = [] then f else { f with synObserved := f.synObserved.erase original }
  keys.foldl (forgetKey original) f

/-- What `_is_new_tcp_syn` does for a SYN. -/
def recordSyn (key : FlowTuple) (f : FlowRecords) : FlowRecords :=
  let f := match f.natOwners.get? key with
    | none => f
    | some owner => f.forgetObservedNat owner
  let f := f.forgetObservedNat key
  { f with
    midstreamBypass := f.midstreamBypass.erase key
    synObserved := insert key f.synObserved }

/-- One round of the first loop of `_remember_observed_nat_syn`. -/
def displaceOwner (original : FlowTuple) (f : FlowRecords) (key : FlowTuple) : FlowRecords :=
  match f.natOwners.get? key with
  | none => f
  | some owner => if owner = original then f else f.forgetObservedNat owner

/-- What `_remember_observed_nat_syn` does for a SYN that was rewritten. -/
def rememberTranslated (original translated : FlowTuple) (f : FlowRecords) : FlowRecords :=
  if translated = original then f
  else
    let keys := [translated,translated.reverse].dedup
    let f := keys.foldl (displaceOwner original) f
    { synObserved := f.synObserved ∪ keys.toFinset
      midstreamBypass := f.midstreamBypass \ keys.toFinset
      natTuples := f.natTuples.set original keys
      natOwners := keys.foldl (fun owners key => owners.set key original) f.natOwners
      natForward := insert translated f.natForward }

/-- `_is_midstream_tcp_flow` for a TCP packet without SYN. -/
def classifyMidstream (key : FlowTuple) (f : FlowRecords) : Bool × FlowRecords :=
  if key ∈ f.synObserved then (false,f)
  else if key ∈ f.midstreamBypass then (true,f)
  else (true,{ f with midstreamBypass := insert key f.midstreamBypass })

variable {f : FlowRecords}

theorem classifyMidstream_fst (key : FlowTuple) :
    (f.classifyMidstream key).1 = true ↔ key ∉ f.synObserved := by
  unfold classifyMidstream
  split_ifs with hs hm
  · simp [hs]
  · simp [hs]
  · simp [hs]

theorem classifyMidstream_synObserved (key : FlowTuple) :
    (f.classifyMidstream key).2.synObserved = f.synObserved := by
  unfold classifyMidstream
  split_ifs <;> rfl

theorem forgetKey_synObserved {original key x : FlowTuple} (hx : x ∈ f.synObserved)
    (hk : x = key → f.natOwners.get? key ≠ some original) :
    x ∈ (f.forgetKey original key).synObserved := by
  unfold forgetKey
  split_ifs with howner
  · have hne : x ≠ key := fun he => hk he howner
    exact Finset.mem_erase.mpr ⟨hne,hx⟩
  · exact hx

theorem forgetKey_natOwners {original key x y : FlowTuple}
    (h : (f.forgetKey original key).natOwners.get? x = some y) : f.natOwners.get? x = some y := by
  unfold forgetKey at h
  split_ifs at h
  · exact ((Dict.get?_pop_eq_some _ _ _ _).mp h).2
  · exact h

theorem foldl_forgetKey {original x : FlowTuple} (keys : List FlowTuple)
    (hx : x ∈ f.synObserved) (hk : x ∈ keys → f.natOwners.get? x ≠ some original) :
    x ∈ (keys.foldl (forgetKey original) f).synObserved := by
  induction keys generalizing f with
  | nil => exact hx
  | cons key keys ih =>
    refine ih (forgetKey_synObserved hx ?_) ?_
    · rintro rfl
      exact hk List.mem_cons_self
    · intro hmem howner
      exact hk (List.mem_cons_of_mem _ hmem) (forgetKey_natOwners howner)

theorem foldl_forgetKey_natOwners {original x y : FlowTuple} (keys : List FlowTuple)
    (h : (keys.foldl (forgetKey original) f).natOwners.get? x = some y) :
    f.natOwners.get? x = some y := by
  induction keys generalizing f with
  | nil => exact h
  | cons key keys ih => exact forgetKey_natOwners (ih h)

theorem forgetObservedNat_synObserved {original x : FlowTuple} (hx : x ∈ f.synObserved)
    (hne : x ≠ original)
    (hk : ∀ keys, f.natTuples.get? original = some keys → x ∈ keys →
      f.natOwners.get? x ≠ some original) :
    x ∈ (f.forgetObservedNat original).synObserved := by
  unfold forgetObservedNat
  refine foldl_forgetKey _ ?_ ?_
  · split_ifs
    · exact hx
    · exact Finset.mem_erase.mpr ⟨hne,hx⟩
  · intro hmem
    cases hkeys : f.natTuples.get? original with
    | none => simp [hkeys] at hmem
    | some keys =>
      simp only [hkeys,Option.getD_some] at hmem ⊢
      have howner := hk keys hkeys hmem
      split_ifs <;> exact howner

theorem forgetObservedNat_natOwners {original x y : FlowTuple}
    (h : (f.forgetObservedNat original).natOwners.get? x = some y) :
    f.natOwners.get? x = some y := by
  unfold forgetObservedNat at h
  have hfold := foldl_forgetKey_natOwners _ h
  split_ifs at hfold <;> exact hfold

theorem forgetObservedNat_natTuples (original : FlowTuple) :
    (f.forgetObservedNat original).natTuples = f.natTuples.pop original := by
  have hfold : ∀ (keys : List FlowTuple) (g : FlowRecords),
      (keys.foldl (forgetKey original) g).natTuples = g.natTuples := by
    intro keys
    induction keys with
    | nil => exact fun g => rfl
    | cons key keys ih =>
      intro g
      refine (ih _).trans ?_
      unfold forgetKey
      split_ifs <;> rfl
  unfold forgetObservedNat
  rw [hfold]
  split_ifs <;> rfl

theorem recordSyn_synObserved {key x : FlowTuple} (hx : x ∈ f.synObserved)
    (howner : ∀ owner, f.natOwners.get? key = some owner → owner = key)
    (hown : ∀ keys, f.natTuples.get? key = some keys → x ∈ keys → f.natOwners.get? x = some key →
      x = key) :
    x ∈ (f.recordSyn key).synObserved := by
  by_cases hkey : x = key
  · exact hkey ▸ Finset.mem_insert_self _ _
  · refine Finset.mem_insert_of_mem ?_
    have hforget : x ∈ (f.forgetObservedNat key).synObserved :=
      forgetObservedNat_synObserved hx hkey fun keys hkeys hmem h => hkey (hown keys hkeys hmem h)
    cases h : f.natOwners.get? key with
    | none => exact hforget
    | some owner =>
      -- the record of the flow is forgotten twice, the second time with no tuples left
      cases howner owner h
      refine forgetObservedNat_synObserved hforget hkey fun keys hkeys _ => ?_
      rw [forgetObservedNat_natTuples,Dict.get?_pop_self] at hkeys
      cases hkeys

theorem mem_recordSyn (key : FlowTuple) : key ∈ (f.recordSyn key).synObserved :=
  Finset.mem_insert_self _ _

theorem recordSyn_natOwners {key x y : FlowTuple}
    (h : (f.recordSyn key).natOwners.get? x = some y) : f.natOwners.get? x = some y := by
  unfold recordSyn at h
  have hforget := forgetObservedNat_natOwners h
  split at hforget
  · exact hforget
  · exact forgetObservedNat_natOwners hforget

theorem foldl_displaceOwner {original : FlowTuple} (keys : List FlowTuple)
    (h : ∀ key ∈ keys, ∀ owner, f.natOwners.get? key = some owner → owner = original) :
    keys.foldl (displaceOwner original) f = f := by
  have hone : ∀ key ∈ keys, displaceOwner original f key = f := by
    intro key hkey
    unfold displaceOwner
    split
    · rfl
    · rename_i owner howner
      rw [if_pos (h key hkey owner howner)]
  induction keys with
  | nil => rfl
  | cons key keys ih =>
    rw [List.foldl_cons,hone key List.mem_cons_self]
    exact ih (fun k hk => h k (List.mem_cons_of_mem _ hk))
      fun k hk => hone k (List.mem_cons_of_mem _ hk)

theorem rememberTranslated_synObserved {original translated x : FlowTuple}
    (hx : x ∈ f.synObserved)
    (h : ∀ key, key = translated ∨ key = translated.reverse →
      ∀ owner, f.natOwners.get? key = some owner → owner = original) :
    x ∈ (f.rememberTranslated original translated).synObserved := by
  unfold rememberTranslated
  split_ifs
  · exact hx
  · have hsame : [translated,translated.reverse].dedup.foldl (displaceOwner original) f = f := by
      refine foldl_displaceOwner _ fun key hkey => h key ?_
      simpa using hkey
    dsimp only
    rw [hsame]
    exact Finset.mem_union_left _ hx

end FlowRecords
end FakeNetNG
