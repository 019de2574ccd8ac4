import DiscoveryClient.ConfGen
import DiscoveryClient.FileOrder
import DiscoveryClient.RuneText

/-! Entries that the client has written into a file itself: when a new cache holds all of them, and
no others, after it has loaded that file, or reloaded them from `internal.json`. -/

namespace DiscoveryClient

open GoString Commonstructs

/-- The cache holds the entries that were found and no others. -/
structure Restores (found : List Commonstructs.Entry) (c : Cache) : Prop where
  all : ∀ entry ∈ found, ∃ x ∈ c.cacheEntries, SameFields entry x.entry
  only : ∀ x ∈ c.cacheEntries, ∃ entry ∈ found, SameFields entry x.entry

/-- No endpoint was found twice with different host ids. -/
def HostIDsAgree (found : List Commonstructs.Entry) : Prop :=
  ∀ entry ∈ found, ∀ entry' ∈ found, entry.toConfig.tkey = entry'.toConfig.tkey →
    entry.hostID = entry'.hostID

theorem sameFields_iff {entry : Commonstructs.Entry} {e : Entry} :
    SameFields entry e ↔ e.tkey = entry.toConfig.tkey ∧ e.hostid = entry.hostID := by
  simp only [SameFields, Entry.tkey, Entry.toConfig, TKey.mk.injEq]
  tauto

section NewCache

variable {nvmfHosts : GoMap GoString GoString} {es added : List Entry} {c : Cache}
  {found : List Commonstructs.Entry}

/-- What a new cache holds is what it was offered, up to the host id it uses. -/
theorem Adds.mem_of_new (adds : Adds (newCache nvmfHosts) es added c)
    (huser : ∀ e ∈ es, e.entrySource = .user) {x : CachedEntry} (hx : x ∈ c.cacheEntries) :
    ∃ e ∈ es, ∃ id, x.entry = { e with effectiveHostid := id } := by
  have hmem : x.entry ∈ c.cacheEntries.map (·.entry) := List.mem_map_of_mem hx
  rw [adds.entries huser] at hmem
  obtain ⟨e, he, hxe⟩ := List.mem_map.mp hmem
  obtain ⟨id, hid⟩ := maybeUpdateHostIDs_frame nvmfHosts e
  exact ⟨e, (adds.of_mem_added he).1, id, hxe.symm.trans hid⟩

theorem Adds.offered_of_restores (adds : Adds (newCache nvmfHosts) es added c)
    (huser : ∀ e ∈ es, e.entrySource = .user) (restores : Restores found c) :
    ∀ entry ∈ found, ∃ e ∈ es, SameFields entry e := by
  intro entry hentry
  obtain ⟨x, hx, hfields⟩ := restores.all entry hentry
  obtain ⟨e, he, id, hxe⟩ := adds.mem_of_new huser hx
  rw [hxe] at hfields
  exact ⟨e, he, hfields⟩

theorem Restores.hostIDsAgree (restores : Restores found c) (inv : CacheInv c) :
    HostIDsAgree found := by
  intro entry hentry entry' hentry' hkey
  obtain ⟨x, hx, hfields⟩ := restores.all entry hentry
  obtain ⟨y, hy, hfields'⟩ := restores.all entry' hentry'
  rw [sameFields_iff] at hfields hfields'
  have hxy := inv.eq_of_tkey hx hy (by rw [hfields.1, hfields'.1, hkey])
  rw [← hfields.2, ← hfields'.2, hxy]

/-- One entry is stored for each key that is offered, and it does not matter which. -/
theorem Adds.restores (adds : Adds (newCache nvmfHosts) es added c)
    (huser : ∀ e ∈ es, e.entrySource = .user) (agree : HostIDsAgree found)
    (hall : ∀ entry ∈ found, ∃ e ∈ es, SameFields entry e)
    (honly : ∀ e ∈ es, ∃ entry ∈ found, SameFields entry e) : Restores found c := by
  have only : ∀ x ∈ c.cacheEntries, ∃ entry ∈ found, SameFields entry x.entry := by
    intro x hx
    obtain ⟨e, he, id, hxe⟩ := adds.mem_of_new huser hx
    obtain ⟨entry, hentry, hfields⟩ := honly e he
    rw [hxe]
    exact ⟨entry, hentry, hfields⟩
  refine ⟨fun entry hentry => ?_, only⟩
  obtain ⟨e, he, hfields⟩ := hall entry hentry
  obtain ⟨x, hx, hkey⟩ := adds.hasKey.mpr (Or.inr ⟨e, he, rfl⟩)
  obtain ⟨entry', hentry', hfields'⟩ := only x hx
  rw [sameFields_iff] at hfields hfields'
  have hsame : entry.toConfig.tkey = entry'.toConfig.tkey := by
    rw [← hfields.1, ← hfields'.1, hkey]
  refine ⟨x, hx, sameFields_iff.mpr ⟨by rw [hfields'.1, hsame], ?_⟩⟩
  rw [hfields'.2, agree entry hentry entry' hentry' hsame]

end NewCache

section Adjusted

variable {adjustTraddr : GoString → Bool} {e e' : Entry} {bytes : GoString} {parsed : List Entry}

/-- The address of a line, once it is there, has been looked up. -/
def Adjusted (adjustTraddr : GoString → Bool) (e : Entry) : Prop :=
  e.traddr = [] ∨ adjustTraddr e.traddr = true

theorem Flag.set_adjusted {flag : Flag} {token : GoString} (he : Adjusted adjustTraddr e)
    (h : flag.set adjustTraddr e token = .ok e') : Adjusted adjustTraddr e' := by
  cases flag with
  | traddr =>
    simp only [Flag.set] at h
    split at h
    next hadjust =>
      cases Except.ok.inj h
      exact Or.inr hadjust
    next => cases h
  | transport | trsvcid | ctrlLossTMO =>
    simp only [Flag.set] at h
    split at h
    next =>
      cases Except.ok.inj h
      exact he
    next => cases h
  | hostnqn | hostid | subsysnqn | persistent =>
    cases Except.ok.inj h
    exact he

theorem parseTokens_adjusted {tokens : List GoString} (he : Adjusted adjustTraddr e)
    (h : parseTokens adjustTraddr tokens e = .ok e') : Adjusted adjustTraddr e' := by
  fun_induction parseTokens adjustTraddr tokens e with
  | case1 =>
    cases Except.ok.inj h
    exact he
  | case2 => cases h
  | case3 _ _ _ _ ih => exact ih he h
  | case4 => cases h
  | case5 => cases h
  | case6 _ _ _ _ _ _ _ _ hset ih => exact ih (Flag.set_adjusted he hset) h

theorem parse_adjusted (h : parse adjustTraddr (.content bytes false) = .ok parsed)
    (he : e ∈ parsed) : adjustTraddr e.traddr = true := by
  obtain ⟨line, -, hparse⟩ := (parse_mem_iff h).mp he
  obtain ⟨d, hread, hverified, rfl⟩ := parseLine_some_iff.mp hparse
  exact (parseTokens_adjusted (Or.inl rfl) hread).resolve_left hverified.2.1

end Adjusted

theorem validString_throughJson (s : GoString) : validString s.throughJson = true := by
  let coerced := (runes s).map fun r => if validRune r then r else [0xEF, 0xBF, 0xBD]
  have hgroups : ∀ r ∈ coerced, RuneGroup r ∧ validRune r = true := by
    intro r hr
    obtain ⟨x, hx, rfl⟩ := List.mem_map.mp hr
    split
    next valid => exact ⟨runeGroup_of_mem hx, valid⟩
    next => exact ⟨.three (by decide) (by decide) (by decide) (by decide), rfl⟩
  have hrunes : runes s.throughJson = coerced := by
    have h := runes_groups_append hgroups []
    rw [List.append_nil] at h
    exact h.trans (List.append_nil coerced)
  rw [validString, hrunes]
  exact List.all_eq_true.mpr fun r hr => (hgroups r hr).2

theorem SameFields.throughJson {entry : Commonstructs.Entry} {e : Entry} (h : SameFields entry e)
    (valid : entry.toConfig.ValidStrings) : SameFields entry e.throughJson := by
  obtain ⟨htransport, htraddr, hport, hhostnqn, hnqn, hid⟩ := h
  obtain ⟨vtransport, vtraddr, vhostnqn, vid, vnqn, -⟩ := valid
  refine ⟨?_, ?_, hport, ?_, ?_, ?_⟩
  · exact (congrArg GoString.throughJson htransport).trans (throughJson_of_valid vtransport)
  · exact (congrArg GoString.throughJson htraddr).trans (throughJson_of_valid vtraddr)
  · exact (congrArg GoString.throughJson hhostnqn).trans (throughJson_of_valid vhostnqn)
  · exact (congrArg GoString.throughJson hnqn).trans (throughJson_of_valid vnqn)
  · exact (congrArg GoString.throughJson hid).trans (throughJson_of_valid vid)

theorem validStrings_of_throughJson {entry : Commonstructs.Entry} {e : Entry}
    (h : SameFields entry e.throughJson) : entry.toConfig.ValidStrings := by
  obtain ⟨htransport, htraddr, -, hhostnqn, hnqn, hid⟩ := h
  refine ⟨?_, ?_, ?_, ?_, ?_, rfl⟩
  · exact (congrArg validString htransport.symm).trans (validString_throughJson e.transport)
  · exact (congrArg validString htraddr.symm).trans (validString_throughJson e.traddr)
  · exact (congrArg validString hhostnqn.symm).trans (validString_throughJson e.hostnqn)
  · exact (congrArg validString hid.symm).trans (validString_throughJson e.hostid)
  · exact (congrArg validString hnqn.symm).trans (validString_throughJson e.subsysnqn)

/-- A host id is set, and the port is one: what the client asks of an entry before it stores it. -/
def Filled (entry : Commonstructs.Entry) : Prop :=
  entry.hostID ≠ [] ∧ 0 ≤ entry.trsvcid ∧ entry.trsvcid ≤ 65535

theorem Created.filled {adjustTraddr : GoString → Bool} {entry : Commonstructs.Entry}
    (h : Created adjustTraddr entry) : Filled entry := ⟨h.hostID, h.trsvcid⟩

theorem Filled.created {adjustTraddr : GoString → Bool} {entry : Commonstructs.Entry}
    (h : Filled entry) (hadjust : adjustTraddr entry.traddr = true) :
    Created adjustTraddr entry := ⟨hadjust, h.1, h.2⟩

/-- What the parser and the cache ask of entries that all of them are to be restored. -/
structure Restorable (found : List Commonstructs.Entry) : Prop where
  readable : ∀ entry ∈ found, Readable entry
  hostIDs : HostIDsAgree found

/-- What holds of a cache whose entries `internal.json` is to give back. -/
structure Saved (found : List Commonstructs.Entry) (c : Cache) : Prop where
  restores : Restores found c
  persistent : ∀ x ∈ c.cacheEntries, x.entry.persistent = true
  user : ∀ x ∈ c.cacheEntries, x.entry.entrySource = .user
  verified : ∀ x ∈ c.cacheEntries, x.entry.Verified

section File

variable {adjustTraddr : GoString → Bool} {order : RangeOrder Entry}
  {nvmfHosts : GoMap GoString GoString} {found : List Commonstructs.Entry}

/-- A new cache that loads a file holds entries of it. -/
theorem mem_fileAdded {bytes : GoString} {x : CachedEntry}
    (hx : x ∈ (fileAdded adjustTraddr order (newCache nvmfHosts)
      (.content bytes false)).1.cacheEntries) :
    ∃ parsed, parse adjustTraddr (.content bytes false) = .ok parsed ∧
      ∃ e ∈ parsed, ∃ id, x.entry = { e.asPersistent with effectiveHostid := id } := by
  cases hparse : parse adjustTraddr (.content bytes false) with
  | error failure =>
    rw [fileAdded, hparse] at hx
    exact absurd hx List.not_mem_nil
  | ok parsed =>
    obtain ⟨added, adds⟩ := @fileAdded_run _ _ order _ _ (newCache_inv nvmfHosts) hparse
    obtain ⟨e', he', id, hxe⟩ := adds.mem_of_new (user_of_asPersistent hparse order) hx
    obtain ⟨e, he, rfl⟩ := List.mem_map.mp he'
    exact ⟨parsed, rfl, e, order.mem_order.mp he, id, hxe⟩

theorem saved_fileAdded {bytes : GoString}
    (restores : Restores found (fileAdded adjustTraddr order (newCache nvmfHosts)
      (.content bytes false)).1) :
    Saved found (fileAdded adjustTraddr order (newCache nvmfHosts) (.content bytes false)).1 := by
  refine ⟨restores, fun x hx => ?_, fun x hx => ?_, fun x hx => ?_⟩
  all_goals
    obtain ⟨parsed, hparse, e, he, id, hxe⟩ := mem_fileAdded hx
    have hparsed := parse_parsed hparse e he
    rw [hxe]
  · rfl
  · exact hparsed.source
  · exact hparsed.verified

/-- A file that the client has written itself is restored exactly when it is fit to be, and its
addresses can be looked up. -/
theorem restores_fileAdded_iff (hfilled : ∀ entry ∈ found, Filled entry) :
    Restores found (fileAdded adjustTraddr order (newCache nvmfHosts)
        (.content (entriesToString found) false)).1 ↔
      Restorable found ∧ ∀ entry ∈ found, adjustTraddr entry.traddr = true := by
  constructor
  · intro restores
    cases hparse : parse adjustTraddr (.content (entriesToString found) false) with
    | error failure =>
      have hnone : found = [] := by
        refine List.eq_nil_iff_forall_not_mem.mpr fun entry hentry => ?_
        obtain ⟨x, hx, -⟩ := restores.all entry hentry
        obtain ⟨parsed, hok, -⟩ := mem_fileAdded hx
        rw [hparse] at hok
        cases hok
      subst hnone
      exact ⟨⟨by simp, by simp [HostIDsAgree]⟩, by simp⟩
    | ok parsed =>
      obtain ⟨added, adds⟩ := @fileAdded_run _ _ order _ _ (newCache_inv nvmfHosts) hparse
      have hcarried : ∀ entry ∈ found, ∃ e ∈ parsed, SameFields entry e := by
        intro entry hentry
        obtain ⟨e', he', hfields⟩ := adds.offered_of_restores
          (user_of_asPersistent hparse order) restores entry hentry
        obtain ⟨e, he, rfl⟩ := List.mem_map.mp he'
        exact ⟨e, order.mem_order.mp he, hfields⟩
      have hadjusted : ∀ entry ∈ found, adjustTraddr entry.traddr = true := by
        intro entry hentry
        obtain ⟨e, he, hfields⟩ := hcarried entry hentry
        rw [← hfields.2.1]
        exact parse_adjusted hparse he
      have hcreated : ∀ entry ∈ found, Created adjustTraddr entry := fun entry hentry =>
        (hfilled entry hentry).created (hadjusted entry hentry)
      exact ⟨⟨readable_of_carried hcreated hparse hcarried,
        restores.hostIDsAgree (fileAdded_inv (newCache_inv nvmfHosts) hparse order)⟩, hadjusted⟩
  · rintro ⟨restorable, hadjusted⟩
    have hcreated : ∀ entry ∈ found, Created adjustTraddr entry := fun entry hentry =>
      (hfilled entry hentry).created (hadjusted entry hentry)
    obtain ⟨parsed, hparse, hall, honly⟩ := loadable_of_readable hcreated restorable.readable
    obtain ⟨added, adds⟩ := @fileAdded_run _ _ order _ _ (newCache_inv nvmfHosts) hparse
    refine adds.restores (user_of_asPersistent hparse order) restorable.hostIDs ?_ ?_
    · intro entry hentry
      obtain ⟨e, he, hfields⟩ := hall entry hentry
      exact ⟨e.asPersistent, List.mem_map_of_mem (order.mem_order.mpr he), hfields⟩
    · intro e' he'
      obtain ⟨e, he, rfl⟩ := List.mem_map.mp he'
      exact honly e (order.mem_order.mp he)

/-- A restart from `internal.json` restores the entries exactly when their strings are valid. -/
theorem restores_syncEntries_iff {c : Cache} (saved : Saved found c) (agree : HostIDsAgree found)
    (nvmfHosts : GoMap GoString GoString) :
    (syncEntries (newCache nvmfHosts) (c.cacheEntries.map fun x => x.entry.throughJson) []).err =
        none ∧
      (Restores found (syncEntries (newCache nvmfHosts)
          (c.cacheEntries.map fun x => x.entry.throughJson) []).cache ↔
        ∀ entry ∈ found, entry.toConfig.ValidStrings) := by
  let written := c.cacheEntries.map fun x => x.entry.throughJson
  have hpersistent : AllPersistent written := by
    intro e he
    obtain ⟨x, hx, rfl⟩ := List.mem_map.mp he
    exact saved.persistent x hx
  have huser : ∀ e ∈ written, e.entrySource = .user := by
    intro e he
    obtain ⟨x, hx, rfl⟩ := List.mem_map.mp he
    exact saved.user x hx
  have hverified : ∀ e ∈ written, e.Verified := by
    intro e he
    obtain ⟨x, hx, rfl⟩ := List.mem_map.mp he
    exact Entry.throughJson_verified.mpr (saved.verified x hx)
  obtain ⟨offered, added, adds, -, herr, hok⟩ :=
    @syncEntries_adds (newCache nvmfHosts) written [] (newCache_inv nvmfHosts) hpersistent
  have hnone := herr.mpr hverified
  rw [(hok hnone).1] at adds
  refine ⟨hnone, fun restores entry hentry => ?_, fun valid => ?_⟩
  · obtain ⟨e, he, hfields⟩ := adds.offered_of_restores huser restores entry hentry
    obtain ⟨x, -, rfl⟩ := List.mem_map.mp he
    exact validStrings_of_throughJson hfields
  · refine adds.restores huser agree (fun entry hentry => ?_) fun e he => ?_
    · obtain ⟨x, hx, hfields⟩ := saved.restores.all entry hentry
      exact ⟨_, List.mem_map_of_mem hx, hfields.throughJson (valid entry hentry)⟩
    · obtain ⟨x, hx, rfl⟩ := List.mem_map.mp he
      obtain ⟨entry, hentry, hfields⟩ := saved.restores.only x hx
      exact ⟨entry, hentry, hfields.throughJson (valid entry hentry)⟩

end File

end DiscoveryClient
