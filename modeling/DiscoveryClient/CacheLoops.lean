import DiscoveryClient.CacheInvariant

namespace DiscoveryClient

/-- What every loop over `addEntry` does: from `c`, offered the entries of the first list, it stores
those of the second and reaches the last cache. -/
inductive Adds : Cache → List Entry → List Entry → Cache → Prop
  | nil (c : Cache) : Adds c [] [] c
  | skip {c c' : Cache} {e : Entry} {es added : List Entry} :
      c.HasKey e.tkey → Adds c es added c' → Adds c (e :: es) added c'
  | push {c c' : Cache} {e : Entry} {es added : List Entry} :
      ¬c.HasKey e.tkey → Adds (c.push e) es added c' → Adds c (e :: es) (e :: added) c'

def AllPersistent (es : List Entry) : Prop := ∀ e ∈ es, e.persistent = true

/-- A loop that stored the entries reports the pair. -/
def Reports (added : List Entry) (p : ClientClusterPair) : Prop :=
  p.isEmpty = false ∧ ∃ e ∈ added, e.pair = p

/-- What storing a new entry keeps, a whole loop keeps. -/
theorem Adds.preserves {c c' : Cache} {es added : List Entry} (adds : Adds c es added c')
    {I : Cache → Prop} (init : I c)
    (step : ∀ d e, I d → e ∈ es → ¬d.HasKey e.tkey → I (d.push e)) : I c' := by
  induction adds with
  | nil => exact init
  | skip _ _ ih => exact ih init (fun d e hd he => step d e hd (List.mem_cons_of_mem _ he))
  | push fresh _ ih =>
    exact ih (step _ _ init (by simp) fresh)
      (fun d e hd he => step d e hd (List.mem_cons_of_mem _ he))

theorem Adds.inv {c c' : Cache} {es added : List Entry} (adds : Adds c es added c')
    (inv : CacheInv c) (he : AllPersistent es) : CacheInv c' :=
  adds.preserves inv fun _ e hd hmem fresh => hd.push (he e hmem) fresh

theorem Adds.nvmfHosts {c c' : Cache} {es added : List Entry} (adds : Adds c es added c') :
    c'.nvmfHosts = c.nvmfHosts :=
  adds.preserves (I := fun d => d.nvmfHosts = c.nvmfHosts) rfl fun _ _ hd _ _ => hd

theorem Adds.append {c c₁ c₂ : Cache} {es fs added more : List Entry} (first : Adds c es added c₁)
    (second : Adds c₁ fs more c₂) : Adds c (es ++ fs) (added ++ more) c₂ := by
  induction first with
  | nil => exact second
  | skip h _ ih => exact .skip h (ih second)
  | push h _ ih => exact .push h (ih second)

theorem Adds.hasKey {c c' : Cache} {es added : List Entry} (adds : Adds c es added c') {k : TKey} :
    c'.HasKey k ↔ c.HasKey k ∨ ∃ e ∈ es, e.tkey = k := by
  induction adds with
  | nil => simp
  | skip h _ ih =>
    rw [ih]
    constructor
    · rintro (h | ⟨x, hx, rfl⟩)
      · exact Or.inl h
      · exact Or.inr ⟨x, by simp [hx], rfl⟩
    · rintro (h | ⟨x, hx, rfl⟩)
      · exact Or.inl h
      · rcases List.mem_cons.mp hx with rfl | hx
        · exact Or.inl h
        · exact Or.inr ⟨x, hx, rfl⟩
  | push _ _ ih =>
    rw [ih, Cache.push_hasKey]
    simp only [List.mem_cons, exists_eq_or_imp]
    tauto

theorem Adds.hasKey_added {c c' : Cache} {es added : List Entry} (adds : Adds c es added c')
    {k : TKey} : c'.HasKey k ↔ c.HasKey k ∨ ∃ e ∈ added, e.tkey = k := by
  induction adds with
  | nil => simp
  | skip _ _ ih => exact ih
  | push _ _ ih =>
    rw [ih, Cache.push_hasKey]
    simp only [List.mem_cons, exists_eq_or_imp]
    tauto

theorem Adds.of_mem_added {c c' : Cache} {es added : List Entry} (adds : Adds c es added c')
    {e : Entry} (he : e ∈ added) : e ∈ es ∧ ¬c.HasKey e.tkey := by
  induction adds with
  | nil => simp at he
  | skip _ _ ih => exact ⟨List.mem_cons_of_mem _ (ih he).1, (ih he).2⟩
  | push fresh _ ih =>
    rcases List.mem_cons.mp he with rfl | he
    · exact ⟨by simp, fresh⟩
    · refine ⟨List.mem_cons_of_mem _ (ih he).1, ?_⟩
      intro hk
      exact (ih he).2 (Cache.push_hasKey.mpr (Or.inl hk))

theorem Adds.lookup {c c' : Cache} {es added : List Entry} (adds : Adds c es added c')
    (inv : CacheInv c) (he : AllPersistent es) {p : ClientClusterPair} {k : TKey}
    (hk : k ∈ c.conns p) : (c'.conns p).lookup k = (c.conns p).lookup k := by
  induction adds with
  | nil => rfl
  | skip _ _ ih => exact ih inv (fun x hx => he x (by simp [hx])) hk
  | @push c c' e es added fresh _ ih =>
    have hold := (inv.keys p k).mp hk
    have hne : k ≠ e.tkey := fun h => fresh (h ▸ hold.2)
    have inv' := inv.push (he e (by simp)) fresh
    rw [ih inv' (fun x hx => he x (by simp [hx]))
      ((inv'.keys p k).mpr ⟨hold.1, Cache.push_hasKey.mpr (Or.inl hold.2)⟩), Cache.push_conns]
    split
    next => rw [GoMap.lookup_insert_eq, if_neg hne]
    next => rfl

theorem Adds.frame {c c' : Cache} {es added : List Entry} (adds : Adds c es added c')
    {p : ClientClusterPair} (hp : ∀ e ∈ added, e.pair ≠ p) :
    c'.connections.lookup p = c.connections.lookup p := by
  induction adds with
  | nil => rfl
  | skip _ _ ih => exact ih hp
  | @push c c' e es added _ _ ih =>
    rw [ih (fun x hx => hp x (by simp [hx]))]
    change AList.lookup p (ConnectionMap.addConnection _ _ _) = _
    unfold ConnectionMap.addConnection
    rw [GoMap.lookup_insert_eq, if_neg]
    · rfl
    · intro h
      rw [Cache.stored_tkey, Entry.tkey_pair] at h
      exact hp e (by simp) h.symm

theorem mem_insert_pair {pairs : List ClientClusterPair} {pair p : ClientClusterPair} :
    p ∈ (if pair.isEmpty then pairs else pairs.insert pair) ↔
      p ∈ pairs ∨ (pair.isEmpty = false ∧ p = pair) := by
  split
  next h => simp [h]
  next h => simp [h, or_comm]

theorem mem_append_pair {pairs : List ClientClusterPair} {pair p : ClientClusterPair} :
    p ∈ (if pair.isEmpty then pairs else pairs ++ [pair]) ↔
      p ∈ pairs ∨ (pair.isEmpty = false ∧ p = pair) := by
  split
  next h => simp [h]
  next h => simp [h]

theorem reports_cons {e : Entry} {added : List Entry} {p : ClientClusterPair} :
    Reports (e :: added) p ↔ (e.pair.isEmpty = false ∧ p = e.pair) ∨ Reports added p := by
  constructor
  · rintro ⟨hp, x, hx, rfl⟩
    rcases List.mem_cons.mp hx with rfl | hx
    · exact Or.inl ⟨hp, rfl⟩
    · exact Or.inr ⟨hp, x, hx, rfl⟩
  · rintro (⟨he, rfl⟩ | ⟨hp, x, hx, rfl⟩)
    · exact ⟨he, e, by simp, rfl⟩
    · exact ⟨hp, x, by simp [hx], rfl⟩

theorem reports_append {added more : List Entry} {p : ClientClusterPair} :
    Reports (added ++ more) p ↔ Reports added p ∨ Reports more p := by
  simp only [Reports, List.mem_append, or_and_right, exists_or, and_or_left]

theorem not_reports_nil {p : ClientClusterPair} : ¬Reports [] p := by
  simp [Reports]

/-- The entry as `fileAdded` offers it to the cache. -/
def Entry.asPersistent (e : Entry) : Entry := { e with persistent := true }

/-- The entries of a user file as `fileAdded` stores them. -/
def UserEntry (e : Entry) : Prop := ∃ f, Parsed f ∧ e = { f with persistent := true }

theorem UserEntry.persistent {e : Entry} (h : UserEntry e) : e.persistent = true := by
  obtain ⟨f, -, rfl⟩ := h
  rfl

theorem addFileEntries_adds {c : Cache} {entries : List Entry} {pairs : List ClientClusterPair}
    (inv : CacheInv c) :
    ∃ added c' pairs', addFileEntries c entries pairs = (c', .ok pairs') ∧
      Adds c (entries.map fun e => { e with persistent := true }) added c' ∧
      ∀ p, p ∈ pairs' ↔ p ∈ pairs ∨ Reports added p := by
  induction entries generalizing c pairs with
  | nil => exact ⟨[], c, pairs, rfl, .nil c, by simp [not_reports_nil]⟩
  | cons e rest ih =>
    let e' : Entry := { e with persistent := true }
    rcases addEntry_cases inv (show e'.persistent = true from rfl) with ⟨h, hc⟩ | ⟨h, hc⟩
    · obtain ⟨added, c', pairs', hrun, adds, hpairs⟩ := @ih c pairs inv
      exact ⟨added, c', pairs', by simpa [addFileEntries, hc, e'] using hrun, .skip h adds, hpairs⟩
    · obtain ⟨added, c', pairs', hrun, adds, hpairs⟩ :=
        @ih (c.push e') (if e'.pair.isEmpty then pairs else pairs.insert e'.pair) (inv.push rfl h)
      refine ⟨e' :: added, c', pairs', by simpa only [addFileEntries, hc, e'] using hrun,
        .push h adds, ?_⟩
      intro p
      rw [hpairs, mem_insert_pair, reports_cons, or_assoc]

theorem addReferrals_adds {c : Cache} {rs : List Referral} {pairs : List ClientClusterPair}
    (inv : CacheInv c) :
    ∃ added c' pairs', addReferrals c rs pairs = (c', pairs') ∧
      Adds c (rs.map getEntryFromReferral) added c' ∧
      ∀ p, p ∈ pairs' ↔ p ∈ pairs ∨ Reports added p := by
  induction rs generalizing c pairs with
  | nil => exact ⟨[], c, pairs, rfl, .nil c, by simp [not_reports_nil]⟩
  | cons r rest ih =>
    let e := getEntryFromReferral r
    rcases addEntry_cases inv (show e.persistent = true from rfl) with ⟨h, hc⟩ | ⟨h, hc⟩
    · obtain ⟨added, c', pairs', hrun, adds, hpairs⟩ := @ih c pairs inv
      exact ⟨added, c', pairs', by simpa [addReferrals, hc, e] using hrun, .skip h adds, hpairs⟩
    · obtain ⟨added, c', pairs', hrun, adds, hpairs⟩ :=
        @ih (c.push e) (if e.pair.isEmpty then pairs else pairs ++ [e.pair]) (inv.push rfl h)
      refine ⟨e :: added, c', pairs', by simpa only [addReferrals, hc, e] using hrun,
        .push h adds, ?_⟩
      intro p
      rw [hpairs, mem_append_pair, reports_cons, or_assoc]

/-- The pairs a caller of `fileAdded` goes on with: it ignores the error, and the list is then nil. -/
def reported : Except CacheError (List ClientClusterPair) → List ClientClusterPair
  | .ok pairs => pairs
  | .error _ => []

theorem fileAdded_adds {adjustTraddr : GoString → Bool} {order : RangeOrder Entry} {c : Cache}
    {file : UserFile} (inv : CacheInv c) :
    ∃ es added, Adds c es added (fileAdded adjustTraddr order c file).1 ∧
      (∀ e ∈ es, UserEntry e) ∧
      ∀ p, p ∈ reported (fileAdded adjustTraddr order c file).2 ↔ Reports added p := by
  unfold fileAdded
  split
  next => exact ⟨[], [], .nil c, by simp, by simp [reported, not_reports_nil]⟩
  next newEntries hparse =>
    obtain ⟨added, c', pairs', hrun, adds, hpairs⟩ :=
      @addFileEntries_adds c (order.order newEntries) [] inv
    rw [hrun]
    refine ⟨_, added, adds, ?_, by simpa [reported] using hpairs⟩
    intro e he
    obtain ⟨f, hf, rfl⟩ := List.mem_map.mp he
    exact ⟨f, parse_parsed hparse f (by simpa using hf), rfl⟩

theorem onEvent_adds {adjustTraddr : GoString → Bool} {order : RangeOrder Entry} {c : Cache}
    {op : EventOp} {base : GoString} {file : UserFile} (inv : CacheInv c) :
    ∃ es added, Adds c es added (onEvent adjustTraddr order c op base file).cache ∧
      (∀ e ∈ es, UserEntry e) ∧
      ∀ p, p ∈ (onEvent adjustTraddr order c op base file).changed ↔ Reports added p := by
  have quiet : ∃ es added, Adds c es added c ∧ (∀ e ∈ es, UserEntry e) ∧
      ∀ p, p ∈ ([] : List ClientClusterPair) ↔ Reports added p :=
    ⟨[], [], .nil c, by simp, by simp [not_reports_nil]⟩
  have loaded := @fileAdded_adds adjustTraddr order c file inv
  unfold onEvent
  split
  next => exact quiet
  next =>
    cases op with
    | create | rename =>
      rcases hf : fileAdded adjustTraddr order c file with ⟨c', (err | pairs)⟩
      all_goals simpa [hf, reported] using loaded
    | remove | modify | chmod => exact quiet

end DiscoveryClient
