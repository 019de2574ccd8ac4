import DiscoveryClient.Agreement
import DiscoveryClient.LogPageEntry

namespace DiscoveryClient

open GoString

/-- The events of the program itself: referrals reach the cache only from discoveries. -/
def SystemEvent.OfProgram : SystemEvent → Prop
  | .handleReferrals .. => False
  | .aen _ _ result _ _ => result.FromLogPage
  | _ => True

def program : Machine System SystemEvent where
  init := parties.init
  step s e s' := e.OfProgram ∧ parties.step s e s'

/-- Every cached entry passes `verify`, and a restart on the file written for the cache fails on
nothing but the user's directory. -/
def Reloadable (s : System) : Prop :=
  (∀ e ∈ s.cache.cacheEntries, e.entry.verify = .ok ()) ∧
  ∀ (adjustTraddr : GoString → Bool) (order : GoString → RangeOrder Entry)
    (nvmfHosts : GoMap GoString GoString) (now : Int) (userDir : UserDir),
    let o := sync adjustTraddr order (newCache nvmfHosts) (createReferralsFile s.cache now) userDir
    o.err = none ∨ o.err = some .statUserDir ∨ o.err = some .readUserDir

/-- A successful discovery reports an address and a port for each referral. -/
def NamesEndpoints : SystemEvent → Prop
  | .aen _ serverChange result _ _ => serverChange = false →
      ∀ logPageEntries, discover result = some logPageEntries →
        ∀ d ∈ logPageEntries, d.subType = nvmeNqnDisc → d.traddr ≠ [] ∧ d.trsvcID ≠ 0
  | _ => True

def AllVerified (c : Cache) : Prop := ∀ e ∈ c.cacheEntries, e.entry.Verified

theorem stored_verified {c : Cache} {e : Entry} (all : AllVerified c) (he : e.Verified) :
    (c.stored e).Verified := by
  obtain ⟨id, hid⟩ := maybeUpdateHostIDs_frame c.nvmfHosts (inheritTMO c.cacheEntries e)
  rw [Cache.stored, hid]
  unfold inheritTMO
  split
  next =>
    split
    next x hx =>
      obtain ⟨h₁, h₂, h₃, h₄, h₅, -⟩ := he
      exact ⟨h₁, h₂, h₃, h₄, h₅, (all x (List.mem_of_find?_eq_some hx)).2.2.2.2.2⟩
    next => exact he
  next => exact he

theorem Adds.allVerified {c c' : Cache} {es added : List Entry} (adds : Adds c es added c')
    (all : AllVerified c) (hes : ∀ e ∈ es, e.Verified) : AllVerified c' := by
  refine adds.preserves all ?_
  intro d e hd he _ x hx
  rw [Cache.push_entries, List.mem_append, List.mem_singleton] at hx
  rcases hx with hx | rfl
  · exact hd x hx
  · exact stored_verified hd (hes e he)

theorem syncFiles_err {adjustTraddr : GoString → Bool} {order : GoString → RangeOrder Entry}
    {c : Cache} {files : List DirEntry} {changed : List ClientClusterPair} :
    (syncFiles adjustTraddr order c files changed).err = none := by
  induction files generalizing c changed with
  | nil => rfl
  | cons f rest ih =>
    rw [syncFiles]
    split
    next => exact ih
    next =>
      split
      next => exact ih
      next => exact ih

/-- `sync` only ever fails on a file it was handed by checking the file's entries. -/
theorem sync_created_err {adjustTraddr : GoString → Bool} {order : GoString → RangeOrder Entry}
    {c d : Cache} {now : Int} {userDir : UserDir} (inv : CacheInv c) (invd : CacheInv d)
    (all : AllVerified c) :
    let o := sync adjustTraddr order d (createReferralsFile c now) userDir
    o.err = none ∨ o.err = some .statUserDir ∨ o.err = some .readUserDir := by
  intro o
  cases hjson : useInternalJson (createReferralsFile c now) userDir with
  | error err =>
    have ho : o = ⟨d, [], false, some err⟩ := by
      simp only [o, sync, hjson]
    have herr : err = .statUserDir := by
      unfold useInternalJson createReferralsFile at hjson
      simp only at hjson
      repeat' split at hjson
      all_goals simp_all
    exact Or.inr (Or.inl (by rw [ho, herr]))
  | ok r =>
    cases r with
    | none =>
      cases hfiles : userDir.files with
      | none => exact Or.inr (Or.inr (by simp only [o, sync, hjson, hfiles]))
      | some files =>
        have ho : o = syncFiles adjustTraddr order d files [] := by
          simp only [o, sync, hjson, hfiles]
        exact Or.inl (by rw [ho, syncFiles_err])
    | some es =>
      have ho : o = syncEntries d es [] := by
        simp only [o, sync, hjson]
      have hes : ∀ e ∈ es, e.Verified := by
        intro e he
        rw [useInternalJson_created hjson] at he
        obtain ⟨x, hx, rfl⟩ := List.mem_map.mp he
        exact Entry.throughJson_verified.mpr (all x hx)
      obtain ⟨offered, added, -, -, herr, -⟩ :=
        @syncEntries_adds d es [] invd (created_persistent inv hjson)
      exact Or.inl (by rw [ho]; exact herr.mpr hes)

theorem reloadable_iff {s : System} (inv : CacheInv s.cache) :
    Reloadable s ↔ AllVerified s.cache := by
  constructor
  · intro h e he
    exact Entry.verify_ok_iff.mp (h.1 e he)
  · intro all
    refine ⟨fun e he => Entry.verify_ok_iff.mpr (all e he), ?_⟩
    intro adjustTraddr order hosts now userDir
    exact sync_created_err inv (newCache_inv hosts) all

end DiscoveryClient
