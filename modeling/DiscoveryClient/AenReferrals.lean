import DiscoveryClient.ReferralConvergence
import DiscoveryClient.Service

namespace DiscoveryClient

open GoString

/-- The key the handler of a notification files a referral under. -/
def Connection.referralKey (conn : Connection) (referral : NvmeDiscPageEntry) : ReferralKey :=
  ⟨referral.traddr, referral.trsvcID, conn.key.nqn, conn.hostnqn⟩

/-- What a discovery over the connection reports as referrals, itself included. -/
def Connection.referrals (conn : Connection) (logPageEntries : List NvmeDiscPageEntry) :
    List NvmeDiscPageEntry :=
  logPageEntries.filter (·.subType = nvmeNqnDisc) ++ [selfReferral conn]

theorem foldl_referralMap {conn : Connection} {ds : List NvmeDiscPageEntry} {m : ReferralMap} :
    (∀ x ∈ (ds.foldl (fun refMap referral =>
        refMap.insert (conn.referralKey referral) referral) m).entries,
      x ∈ m.entries ∨ (x.2 ∈ ds ∧ x.1 = conn.referralKey x.2)) ∧
    ∀ k, k ∈ ds.foldl (fun refMap referral =>
        refMap.insert (conn.referralKey referral) referral) m ↔
      k ∈ m ∨ ∃ d ∈ ds, conn.referralKey d = k := by
  induction ds generalizing m with
  | nil => simp
  | cons d ds ih =>
    obtain ⟨hmem, hkey⟩ := @ih (m.insert (conn.referralKey d) d)
    rw [List.foldl_cons]
    refine ⟨?_, ?_⟩
    · intro x hx
      rcases hmem x hx with h | h
      · rw [GoMap.mem_entries, GoMap.lookup_insert_eq] at h
        split at h
        next hk =>
          have hd : d = x.2 := Option.some.inj h
          exact Or.inr ⟨by simp [hd], by rw [hk, hd]⟩
        next => exact Or.inl (GoMap.mem_entries.mpr h)
      · exact Or.inr ⟨List.mem_cons_of_mem _ h.1, h.2⟩
    · intro k
      rw [hkey, AList.mem_insert]
      simp only [List.mem_cons, exists_eq_or_imp]
      tauto

theorem mem_referralMap {conn : Connection} {ds : List NvmeDiscPageEntry} {x : Referral}
    (hx : x ∈ (referralMap conn ds).entries) : x.2 ∈ ds ∧ x.1 = conn.referralKey x.2 := by
  rcases foldl_referralMap.1 x hx with h | h
  · simp at h
  · exact h

theorem referralMap_mem {conn : Connection} {ds : List NvmeDiscPageEntry} {d : NvmeDiscPageEntry}
    (hd : d ∈ ds) : ∃ x ∈ (referralMap conn ds).entries, x.1 = conn.referralKey d := by
  have hk : conn.referralKey d ∈ referralMap conn ds :=
    (foldl_referralMap.2 _).mpr (Or.inr ⟨d, hd, rfl⟩)
  obtain ⟨d', hd'⟩ := GoMap.mem_iff_lookup.mp hk
  exact ⟨⟨conn.referralKey d, d'⟩, GoMap.mem_entries.mpr hd', rfl⟩

theorem referralMap_onePair {conn : Connection} {logPageEntries : List NvmeDiscPageEntry}
    (hpair : conn.pair.isEmpty = false) :
    OnePair (referralMap conn (conn.referrals logPageEntries)) conn.pair := by
  refine ⟨?_, ?_, hpair⟩
  · intro hnil
    obtain ⟨x, hx, -⟩ := @referralMap_mem conn (conn.referrals logPageEntries) (selfReferral conn)
      (List.mem_append_right _ (List.mem_singleton_self _))
    rw [hnil] at hx
    simp at hx
  · intro r hr
    rw [(mem_referralMap hr).2]
    rfl

theorem mem_referralMap_tkey {conn : Connection} {ds : List NvmeDiscPageEntry} {k : TKey} :
    (∃ r ∈ (referralMap conn ds).entries, Referral.tkey r = k) ↔
      ∃ d ∈ ds, k = ⟨ascii "tcp", d.traddr, d.trsvcID.toNat, conn.key.nqn, conn.hostnqn⟩ := by
  constructor
  · intro h
    obtain ⟨r, hr, hk⟩ := h
    obtain ⟨hd, hkey⟩ := mem_referralMap hr
    refine ⟨r.2, hd, ?_⟩
    rw [← hk, Referral.tkey, getEntryFromReferral, hkey]
    rfl
  · intro h
    obtain ⟨d, hd, hk⟩ := h
    obtain ⟨r, hr, hkey⟩ := @referralMap_mem conn ds d hd
    have hown := (mem_referralMap hr).2
    rw [hkey] at hown
    obtain ⟨haddr, hport⟩ : d.traddr = r.2.traddr ∧ d.trsvcID = r.2.trsvcID := by
      simpa [Connection.referralKey] using hown
    refine ⟨r, hr, ?_⟩
    rw [hk, Referral.tkey, getEntryFromReferral, hkey, haddr, hport]
    rfl

end DiscoveryClient
