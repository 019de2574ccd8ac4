import DiscoveryClient.ConfCarried

namespace DiscoveryClient

open GoString

/-- The same entries up to their order, and under every key a connection with the same host id
and timeout, or none. -/
def Cache.SameContent (c d : Cache) : Prop :=
  (c.cacheEntries.map (·.entry)).Perm (d.cacheEntries.map (·.entry)) ∧
    ∀ p k, ((c.conns p).lookup k).map (fun conn => (conn.hostid, conn.ctrlLossTMO)) =
      ((d.conns p).lookup k).map fun conn => (conn.hostid, conn.ctrlLossTMO)

section Content

variable {c d : Cache}

theorem CacheInv.entriesNodup (inv : CacheInv c) : (c.cacheEntries.map (·.entry)).Nodup := by
  have hkeys := inv.keysNodup
  have hmap : c.cacheEntries.map (fun e => e.entry.tkey) =
      (c.cacheEntries.map (·.entry)).map Entry.tkey := by
    rw [List.map_map]
    rfl
  rw [hmap] at hkeys
  exact List.Nodup.of_map _ hkeys

theorem Cache.hasKey_iff {k : TKey} :
    c.HasKey k ↔ ∃ e ∈ c.cacheEntries.map (·.entry), e.tkey = k := by
  simp [Cache.HasKey]

/-- The values of a connection are the ones of the entry with its key. -/
theorem CacheInv.conn_values (inv : CacheInv c) {p : ClientClusterPair} {k : TKey} {e : Entry}
    (he : e ∈ c.cacheEntries.map (·.entry)) (hk : e.tkey = k) (hp : k.pair = p) :
    ((c.conns p).lookup k).map (fun conn => (conn.hostid, conn.ctrlLossTMO)) =
      some (e.getEffectiveHostId, e.ctrlLossTMO) := by
  obtain ⟨x, hx, rfl⟩ := List.mem_map.mp he
  have hmem := (inv.keys p k).mpr ⟨hp, x, hx, hk⟩
  obtain ⟨conn, hconn⟩ := GoMap.mem_iff_lookup.mp hmem
  obtain ⟨y, hy, hyk, heq⟩ := inv.conn p k conn hconn
  have hxy : y = x := inv.eq_of_tkey hy hx (hyk.trans hk.symm)
  subst hxy
  rw [hconn, heq]
  rfl

/-- Under the invariant the entries determine the connections. -/
theorem sameContent_of_mem (invc : CacheInv c) (invd : CacheInv d)
    (h : ∀ e, e ∈ c.cacheEntries.map (·.entry) ↔ e ∈ d.cacheEntries.map (·.entry)) :
    c.SameContent d := by
  refine ⟨(List.perm_ext_iff_of_nodup invc.entriesNodup invd.entriesNodup).mpr h, ?_⟩
  intro p k
  by_cases hk : k.pair = p ∧ c.HasKey k
  · obtain ⟨hp, hkey⟩ := hk
    obtain ⟨e, he, hek⟩ := Cache.hasKey_iff.mp hkey
    rw [invc.conn_values he hek hp, invd.conn_values ((h e).mp he) hek hp]
  · have hkd : ¬(k.pair = p ∧ d.HasKey k) := by
      rintro ⟨hp, hkey⟩
      obtain ⟨e, he, hek⟩ := Cache.hasKey_iff.mp hkey
      exact hk ⟨hp, Cache.hasKey_iff.mpr ⟨e, (h e).mpr he, hek⟩⟩
    rw [← invc.keys, ← AList.lookup_eq_none] at hk
    rw [← invd.keys, ← AList.lookup_eq_none] at hkd
    rw [hk, hkd]

end Content

section Loading

variable {c c' : Cache} {es added : List Entry}

/-- What the cache holds of a user's entry: the entry itself with its effective host id. -/
theorem Cache.stored_user {e : Entry} (he : e.entrySource = .user) :
    c.stored e = maybeUpdateHostIDs c.nvmfHosts e := by
  rw [Cache.stored, inheritTMO, if_neg (by simp [he])]

theorem Adds.entries (adds : Adds c es added c') (hes : ∀ e ∈ es, e.entrySource = .user) :
    c'.cacheEntries.map (·.entry) =
      c.cacheEntries.map (·.entry) ++ added.map (maybeUpdateHostIDs c.nvmfHosts) := by
  induction adds with
  | nil => simp
  | skip _ _ ih => exact ih (List.forall_mem_cons.mp hes).2
  | @push c c' e es added _ _ ih =>
    obtain ⟨he, hes⟩ := List.forall_mem_cons.mp hes
    rw [ih hes, Cache.push_entries, Cache.stored_user he, List.map_append, List.map_singleton,
      List.append_assoc, List.map_cons]
    rfl

/-- When the new entries for one key agree, it does not matter which of them is stored. -/
theorem Adds.mem_entries (adds : Adds c es added c') (hes : ∀ e ∈ es, e.entrySource = .user)
    (agree : ∀ e ∈ es, ∀ f ∈ es, e.tkey = f.tkey → ¬c.HasKey e.tkey → e = f) (x : Entry) :
    x ∈ c'.cacheEntries.map (·.entry) ↔ x ∈ c.cacheEntries.map (·.entry) ∨
      ∃ e ∈ es, ¬c.HasKey e.tkey ∧ maybeUpdateHostIDs c.nvmfHosts e = x := by
  rw [adds.entries hes, List.mem_append]
  constructor
  · rintro (hx | hx)
    · exact Or.inl hx
    · obtain ⟨e, he, rfl⟩ := List.mem_map.mp hx
      obtain ⟨hmem, hfresh⟩ := adds.of_mem_added he
      exact Or.inr ⟨e, hmem, hfresh, rfl⟩
  · rintro (hx | ⟨e, he, hfresh, rfl⟩)
    · exact Or.inl hx
    · have hkey := adds.hasKey_added.mp (adds.hasKey.mpr (Or.inr ⟨e, he, rfl⟩))
      obtain ⟨f, hf, hfk⟩ := hkey.resolve_left hfresh
      have hef := agree e he f (adds.of_mem_added hf).1 hfk.symm hfresh
      exact Or.inr (List.mem_map.mpr ⟨f, hf, by rw [hef]⟩)

theorem fileAdded_run {adjustTraddr : GoString → Bool} {order : RangeOrder Entry} {file : UserFile}
    {newEntries : List Entry} (inv : CacheInv c) (hparse : parse adjustTraddr file = .ok newEntries) :
    ∃ added, Adds c ((order.order newEntries).map Entry.asPersistent) added
      (fileAdded adjustTraddr order c file).1 := by
  obtain ⟨added, c', pairs, hrun, adds, -⟩ :=
    @addFileEntries_adds c (order.order newEntries) [] inv
  refine ⟨added, ?_⟩
  rw [fileAdded, hparse]
  simp only [hrun]
  exact adds

/-- The first new entry for a key is the one that is stored. -/
theorem Adds.first_stored {e : Entry} (adds : Adds c (e :: es) added c')
    (hes : ∀ x ∈ e :: es, x.entrySource = .user) (fresh : ¬c.HasKey e.tkey) :
    maybeUpdateHostIDs c.nvmfHosts e ∈ c'.cacheEntries.map (·.entry) := by
  have hadded : e ∈ added := by
    cases adds with
    | skip hkey => exact absurd hkey fresh
    | push _ _ => exact List.mem_cons_self
  rw [adds.entries hes]
  exact List.mem_append_right _ (List.mem_map_of_mem hadded)

end Loading

section Parsed

variable {adjustTraddr : GoString → Bool} {bytes : GoString} {newEntries : List Entry} {e f : Entry}

theorem parse_hostaddr (h : parse adjustTraddr (.content bytes false) = .ok newEntries)
    (he : e ∈ newEntries) : e.hostaddr = [] := by
  obtain ⟨line, -, hparse⟩ := (parse_mem_iff h).mp he
  obtain ⟨d, hread, -, rfl⟩ := parseLine_some_iff.mp hparse
  have hd := parseTokens_overwrite (fun t => token_of_mem_lineTokens) hread
  exact congrArg Entry.hostaddr hd

/-- Parsed entries for one endpoint differ at most in what no key holds. -/
theorem asPersistent_ext (h : parse adjustTraddr (.content bytes false) = .ok newEntries)
    (he : e ∈ newEntries) (hf : f ∈ newEntries) (hkey : e.tkey = f.tkey)
    (hid : e.hostid = f.hostid) (htmo : e.ctrlLossTMO = f.ctrlLossTMO) :
    e.asPersistent = f.asPersistent := by
  have hpe := parse_parsed h e he
  have hpf := parse_parsed h f hf
  have hae := parse_hostaddr h he
  have haf := parse_hostaddr h hf
  obtain ⟨htransport, hip, hport, hnqn, hhost⟩ := TKey.mk.inj hkey
  unfold Entry.asPersistent
  rw [htransport, hip, hport, hnqn, hhost, hid, htmo, hae, haf, hpe.source, hpf.source,
    hpe.noEffectiveHostid, hpf.noEffectiveHostid]

theorem hostid_of_stored {hosts : GoMap GoString GoString}
    (h : maybeUpdateHostIDs hosts e.asPersistent = maybeUpdateHostIDs hosts f.asPersistent) :
    e.hostid = f.hostid ∧ e.ctrlLossTMO = f.ctrlLossTMO := by
  obtain ⟨i, hi⟩ := maybeUpdateHostIDs_frame hosts e.asPersistent
  obtain ⟨j, hj⟩ := maybeUpdateHostIDs_frame hosts f.asPersistent
  rw [hi, hj] at h
  have hid := congrArg Entry.hostid h
  have htmo := congrArg Entry.ctrlLossTMO h
  exact ⟨hid, htmo⟩

end Parsed

/-- Any two lines of the file for one endpoint that is not in the cache give the same host id and
the same timeout. -/
def LinesAgree (adjustTraddr : GoString → Bool) (c : Cache) (lines : List GoString) : Prop :=
  ∀ line ∈ lines, ∀ line' ∈ lines, ∀ e e', parseLine adjustTraddr (dropCR line) = .ok (some e) →
    parseLine adjustTraddr (dropCR line') = .ok (some e') → e.tkey = e'.tkey →
    ¬c.HasKey e.tkey → e.hostid = e'.hostid ∧ e.ctrlLossTMO = e'.ctrlLossTMO

section Orders

variable {adjustTraddr : GoString → Bool} {bytes : GoString} {newEntries : List Entry} {c : Cache}

theorem user_of_asPersistent (h : parse adjustTraddr (.content bytes false) = .ok newEntries)
    (order : RangeOrder Entry) :
    ∀ e ∈ (order.order newEntries).map Entry.asPersistent, e.entrySource = .user := by
  intro e he
  obtain ⟨f, hf, rfl⟩ := List.mem_map.mp he
  exact (parse_parsed h f (order.mem_order.mp hf)).source

theorem fileAdded_inv (inv : CacheInv c)
    (h : parse adjustTraddr (.content bytes false) = .ok newEntries) (order : RangeOrder Entry) :
    CacheInv (fileAdded adjustTraddr order c (.content bytes false)).1 := by
  obtain ⟨added, adds⟩ := @fileAdded_run c adjustTraddr order _ _ inv h
  refine adds.inv inv ?_
  intro e he
  obtain ⟨f, -, rfl⟩ := List.mem_map.mp he
  rfl

theorem sameContent_of_linesAgree (inv : CacheInv c)
    (h : parse adjustTraddr (.content bytes false) = .ok newEntries)
    (agree : LinesAgree adjustTraddr c (scanLines bytes)) (order order' : RangeOrder Entry) :
    (fileAdded adjustTraddr order c (.content bytes false)).1.SameContent
      (fileAdded adjustTraddr order' c (.content bytes false)).1 := by
  have hagree : ∀ order : RangeOrder Entry, ∀ e ∈ (order.order newEntries).map Entry.asPersistent,
      ∀ f ∈ (order.order newEntries).map Entry.asPersistent, e.tkey = f.tkey → ¬c.HasKey e.tkey →
        e = f := by
    intro order e' he' f' hf' hkey hfresh
    obtain ⟨e, he, rfl⟩ := List.mem_map.mp he'
    obtain ⟨f, hf, rfl⟩ := List.mem_map.mp hf'
    rw [order.mem_order] at he hf
    obtain ⟨line, hline, hread⟩ := (parse_mem_iff h).mp he
    obtain ⟨line', hline', hread'⟩ := (parse_mem_iff h).mp hf
    obtain ⟨hid, htmo⟩ := agree line hline line' hline' e f hread hread' hkey hfresh
    exact asPersistent_ext h he hf hkey hid htmo
  obtain ⟨added, adds⟩ := @fileAdded_run c adjustTraddr order _ _ inv h
  obtain ⟨added', adds'⟩ := @fileAdded_run c adjustTraddr order' _ _ inv h
  refine sameContent_of_mem (fileAdded_inv inv h order) (fileAdded_inv inv h order') ?_
  intro x
  rw [adds.mem_entries (user_of_asPersistent h order) (hagree order) x,
    adds'.mem_entries (user_of_asPersistent h order') (hagree order') x]
  simp only [List.mem_map, RangeOrder.mem_order]

/-- The entry that is ranged over first is in the cache afterwards. -/
theorem fileAdded_first (inv : CacheInv c)
    (h : parse adjustTraddr (.content bytes false) = .ok newEntries) {e : Entry}
    (he : e ∈ newEntries) (fresh : ¬c.HasKey e.tkey) :
    ∃ order : RangeOrder Entry, maybeUpdateHostIDs c.nvmfHosts e.asPersistent ∈
      (fileAdded adjustTraddr order c (.content bytes false)).1.cacheEntries.map (·.entry) := by
  have hperm : (e :: newEntries.erase e).Perm newEntries := (List.perm_cons_erase he).symm
  obtain ⟨added, adds⟩ := @fileAdded_run c adjustTraddr (RangeOrder.ofPerm hperm) _ _ inv h
  have huser := user_of_asPersistent h (RangeOrder.ofPerm hperm)
  rw [RangeOrder.order_ofPerm, List.map_cons] at adds huser
  exact ⟨_, adds.first_stored huser fresh⟩

theorem linesAgree_of_sameContent (inv : CacheInv c)
    (h : parse adjustTraddr (.content bytes false) = .ok newEntries)
    (same : ∀ order order', (fileAdded adjustTraddr order c (.content bytes false)).1.SameContent
      (fileAdded adjustTraddr order' c (.content bytes false)).1) :
    LinesAgree adjustTraddr c (scanLines bytes) := by
  intro line hline line' hline' e f hread hread' hkey hfresh
  have he := (parse_mem_iff h).mpr ⟨line, hline, hread⟩
  have hf := (parse_mem_iff h).mpr ⟨line', hline', hread'⟩
  obtain ⟨order, hstored⟩ := fileAdded_first inv h he hfresh
  obtain ⟨order', hstored'⟩ := fileAdded_first inv h hf (hkey ▸ hfresh)
  -- Both are now entries of one cache, under one key.
  have hboth := (same order order').1.mem_iff.mp hstored
  have inv' := fileAdded_inv inv h order'
  obtain ⟨x, hx, hxe⟩ := List.mem_map.mp hboth
  obtain ⟨y, hy, hyf⟩ := List.mem_map.mp hstored'
  have hkeys : x.entry.tkey = y.entry.tkey := by
    obtain ⟨i, hi⟩ := maybeUpdateHostIDs_frame c.nvmfHosts e.asPersistent
    obtain ⟨j, hj⟩ := maybeUpdateHostIDs_frame c.nvmfHosts f.asPersistent
    rw [hxe, hyf, hi, hj]
    exact hkey
  have hxy := inv'.eq_of_tkey hx hy hkeys
  rw [hxy, hyf] at hxe
  exact hostid_of_stored hxe.symm

end Orders

/-- Loading a file is deterministic exactly when its lines for one new endpoint agree. -/
theorem fileAdded_deterministic_iff {c : Cache} (reach : Reachable c)
    (adjustTraddr : GoString → Bool) (bytes : GoString) (newEntries : List Entry)
    (h : parse adjustTraddr (.content bytes false) = .ok newEntries) :
    (∀ order order', (fileAdded adjustTraddr order c (.content bytes false)).1.SameContent
      (fileAdded adjustTraddr order' c (.content bytes false)).1) ↔
      LinesAgree adjustTraddr c (scanLines bytes) :=
  ⟨linesAgree_of_sameContent reach.inv h, sameContent_of_linesAgree reach.inv h⟩

/-- The entry of a line for one endpoint, with the host id it gives. -/
def endpointEntry (hostid : GoString) : Entry :=
  ⟨ascii "tcp", 8009, ascii "::1", ascii "h", hostid, ascii "c", false, [], .user, none, []⟩

/-- The same endpoint on two lines that agree. -/
def agreeingFile : GoString :=
  ascii "-t tcp -a ::1 -s 8009 -q h -n c -I 1\n-q h -n c -I 1 -t tcp -a ::1 -s 8009"

theorem fileAdded_deterministic_iff_agreeing :
    (fileAdded (fun _ => true) .stored (newCache ∅) (.content agreeingFile false)).1.SameContent
      (fileAdded (fun _ => true) ⟨List.reverse, List.reverse_perm⟩ (newCache ∅)
        (.content agreeingFile false)).1 := by
  have hparse : parse (fun _ => true) (.content agreeingFile false) =
      .ok [endpointEntry (ascii "1")] := by decide +kernel
  have hlines : ∀ line ∈ scanLines agreeingFile, parseLine (fun _ => true) (dropCR line) =
      .ok (some (endpointEntry (ascii "1"))) := by decide +kernel
  refine (fileAdded_deterministic_iff (.empty ∅) _ _ _ hparse).mpr ?_ _ _
  intro line hline line' hline' e e' hread hread' _ _
  have he : e = endpointEntry (ascii "1") := by
    rw [hlines line hline] at hread
    exact (Option.some.inj (Except.ok.inj hread)).symm
  have he' : e' = endpointEntry (ascii "1") := by
    rw [hlines line' hline'] at hread'
    exact (Option.some.inj (Except.ok.inj hread')).symm
  rw [he, he']
  exact ⟨rfl, rfl⟩

/-- The same endpoint on two lines with different host ids. -/
def disagreeingFile : GoString :=
  ascii "-t tcp -a ::1 -s 8009 -q h -n c -I 1\n-t tcp -a ::1 -s 8009 -q h -n c -I 2"

theorem fileAdded_order_matters :
    ¬∀ (c : Cache) (adjustTraddr : GoString → Bool) (bytes : GoString) (newEntries : List Entry),
      Reachable c → parse adjustTraddr (.content bytes false) = .ok newEntries →
        ∀ order order', (fileAdded adjustTraddr order c (.content bytes false)).1.SameContent
          (fileAdded adjustTraddr order' c (.content bytes false)).1 := by
  intro h
  have hparse : parse (fun _ => true) (.content disagreeingFile false) =
      .ok [endpointEntry (ascii "1"), endpointEntry (ascii "2")] := by decide +kernel
  have hsame := (h (newCache ∅) (fun _ => true) disagreeingFile _ (.empty ∅) hparse .stored
    ⟨List.reverse, List.reverse_perm⟩).1
  have hfirst : (fileAdded (fun _ => true) .stored (newCache ∅)
      (.content disagreeingFile false)).1.cacheEntries.map (·.entry) =
      [(endpointEntry (ascii "1")).asPersistent] := by
    rw [fileAdded, hparse]
    decide +kernel
  have hsecond : (fileAdded (fun _ => true) ⟨List.reverse, List.reverse_perm⟩ (newCache ∅)
      (.content disagreeingFile false)).1.cacheEntries.map (·.entry) =
      [(endpointEntry (ascii "2")).asPersistent] := by
    rw [fileAdded, hparse]
    decide +kernel
  rw [hfirst, hsecond, List.singleton_perm, List.singleton_inj] at hsame
  exact absurd hsame (by decide)

end DiscoveryClient
