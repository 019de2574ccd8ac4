import DiscoveryClient.LogPageRetrieval
import DiscoveryClient.Version

namespace DiscoveryClient

namespace TcpQueue

open NvmefDiscRspPageEntry (onWire)

section Requests

variable {server server' : Server} {numRec : UInt64} {fuel n n' : Nat}
  {res res' : List NvmefDiscRspPageEntry}

/-- More rounds than the loop takes change nothing. -/
theorem getPages_fuel {r : Except LogPageError (List NvmefDiscRspPageEntry × Nat)}
    (h : getPages server numRec fuel n res = some r) (extra : Nat) :
    getPages server numRec (fuel + extra) n res = some r := by
  induction fuel generalizing n res with
  | zero => simp [getPages] at h
  | succ fuel ih =>
    rw [Nat.succ_add, getPages]
    rw [getPages] at h
    split
    next hlt =>
      rw [if_pos hlt] at h
      split
      next err hsend => simpa only [hsend] using h
      next hsend =>
        simp only [hsend] at h
        exact ih h
    next hge => rwa [if_neg hge] at h

/-- The loop depends on the requests it makes, those from `n` up to `n'`. -/
theorem getPages_congr (h : getPages server numRec fuel n res = some (.ok (res', n')))
    (agree : ∀ k < n', server' k = server k) :
    n ≤ n' ∧ getPages server' numRec fuel n res = some (.ok (res', n')) := by
  induction fuel generalizing n res with
  | zero => simp [getPages] at h
  | succ fuel ih =>
    rw [getPages] at h ⊢
    by_cases hlt : res.length < numRec.toNat
    · rw [if_pos hlt] at h ⊢
      cases hsend : sendDiscLogPageRequest (server n) 4096 (.ofNat (res.length * 1024)) numRec with
      | error err =>
        simp only [hsend] at h
        cases h
      | ok page =>
        simp only [hsend] at h
        obtain ⟨hle, hrest⟩ := ih h
        rw [agree n (by omega), hsend]
        exact ⟨by omega, hrest⟩
    · rw [if_neg hlt] at h ⊢
      obtain ⟨-, rfl⟩ := Prod.mk.inj (Except.ok.inj (Option.some.inj h))
      exact ⟨Nat.le_refl _, h⟩

theorem getEntries_congr {paginated : Bool}
    (h : getEntries server paginated fuel numRec = some (.ok (res, n)))
    (agree : ∀ k < n, server' k = server k) :
    getEntries server' paginated fuel numRec = some (.ok (res, n)) := by
  cases paginated with
  | true => exact (getPages_congr h agree).2
  | false =>
    simp only [getEntries, Bool.false_eq_true, if_false, Option.some_inj] at h ⊢
    cases hsend : sendDiscLogPageRequest (server 1) (1024 + numRec.toUInt32 * 1024) 0 numRec with
    | error err =>
      rw [hsend] at h
      cases h
    | ok r =>
      have hn : n = 2 := by
        rw [hsend] at h
        exact (Prod.mk.inj (Except.ok.inj h)).2.symm
      rw [agree 1 (by omega), h]

/-- What a discovery that returns entries has checked. -/
theorem getLogPageEntries_ok {paginated : Bool}
    (h : getLogPageEntries server paginated fuel = some (.ok res)) :
    ∃ numRec genCtr n head numRec' last,
      sendDiscLogPageRequest (server 0) 1024 0 0 = .ok (numRec, genCtr, head) ∧
      getEntries server paginated fuel numRec = some (.ok (res, n)) ∧
      res.length = numRec.toNat ∧
      sendDiscLogPageRequest (server n) 1024 0 0 = .ok (numRec', genCtr, last) := by
  rw [getLogPageEntries] at h
  split at h
  next => simp at h
  next numRec genCtr head hfirst =>
    split at h
    next => simp at h
    next => simp at h
    next found n hentries =>
      by_cases hlen : found.length = numRec.toNat
      · rw [if_neg (by simpa using hlen)] at h
        split at h
        next => simp at h
        next numRec' genCtr' last hlast =>
          by_cases hgen : genCtr = genCtr'
          · rw [if_neg (by simpa using hgen)] at h
            cases Except.ok.inj (Option.some.inj h)
            exact ⟨numRec, genCtr, n, head, numRec', last, hfirst, hentries, hlen,
              by rw [hlast, hgen]⟩
          · simp [hgen] at h
      · simp [hlen] at h

end Requests

section Snapshot

variable {log : DiscoveryLog} {fuel n : Nat} {res : List NvmefDiscRspPageEntry}

theorem getPages_ok (h : getPages (fun _ => execute (some log)) log.header.numRec fuel 1 [] =
      some (.ok (res, n))) :
    (∀ e ∈ log.entries, e.Fits) ∧ res = log.entries.map onWire := by
  have hmore := getPages_fuel h (log.entries.length + 1)
  by_cases fits : ∀ e ∈ log.entries, e.Fits
  · obtain ⟨n', hfit⟩ := @getPages_fit log 0 fits (fuel + (log.entries.length + 1)) (Or.inl rfl)
      (by omega) 1
    have heq := hmore.symm.trans hfit
    exact ⟨fits, (Prod.mk.inj (Except.ok.inj (Option.some.inj heq))).1⟩
  · have herror := @getPages_unfit log 0 fits (fuel + (log.entries.length + 1)) rfl (by simp)
      (by omega) 1
    have heq := hmore.symm.trans herror
    cases heq

/-- The size of the request may wrap around: it is then too small for the entries, and their
number tells. -/
theorem send_whole_ok {numRec genCtr : UInt64}
    (h : sendDiscLogPageRequest (execute (some log)) (1024 + log.header.numRec.toUInt32 * 1024) 0
      log.header.numRec = .ok (numRec, genCtr, res)) (hlen : res.length = log.entries.length) :
    (∀ e ∈ log.entries, e.Fits) ∧ res = log.entries.map onWire := by
  cases hm : (log.entries.length + 1) % 2 ^ 22 with
  | zero =>
    rw [send_whole_no_data hm] at h
    cases h
  | succ m =>
    by_cases fits : ∀ e ∈ log.entries.take m, e.Fits
    · rw [send_whole hm fits] at h
      have hres : res = (log.entries.take m).map onWire := by
        cases h
        rfl
      rw [hres, List.length_map, List.length_take] at hlen
      rw [List.take_of_length_le (by omega)] at fits hres
      exact ⟨fits, hres⟩
    · rw [send_whole_unfit hm fits] at h
      cases h

theorem getEntries_ok {paginated : Bool}
    (h : getEntries (fun _ => execute (some log)) paginated fuel log.header.numRec =
      some (.ok (res, n))) (hlen : res.length = log.entries.length) :
    (∀ e ∈ log.entries, e.Fits) ∧ res = log.entries.map onWire := by
  cases paginated with
  | true => exact getPages_ok h
  | false =>
    simp only [getEntries, Bool.false_eq_true, if_false, Option.some_inj] at h
    cases hsend : sendDiscLogPageRequest (execute (some log))
        (1024 + log.header.numRec.toUInt32 * 1024) 0 log.header.numRec with
    | error err =>
      rw [hsend] at h
      cases h
    | ok r =>
      rw [hsend] at h
      cases h
      exact send_whole_ok hsend hlen

/-- A discovery is a snapshot: whatever others change between its requests, the entries it returns
are those of the log it has seen first, up to the padding of their strings. -/
theorem log_page_snapshot {logs : Nat → DiscoveryLog}
    (changes : Version.Observed (fun log => log.genCtr.toNat) logs) {paginated : Bool} {fuel : Nat}
    {entries : List NvmefDiscRspPageEntry}
    (h : getLogPageEntries (fun k => execute (some (logs k))) paginated fuel =
      some (.ok entries)) :
    sendDiscLogPageRequest (execute (some (logs 0))) 1024 0 0 =
      .ok (.ofNat (logs 0).entries.length, (logs 0).genCtr, []) ∧
    entries = (logs 0).entries.map onWire ∧
    (entries = (logs 0).entries ↔
      ∀ e ∈ (logs 0).entries, e.subnqn.length = 256 ∧ e.traddr.length = 256) := by
  obtain ⟨numRec, genCtr, n, head, numRec', last, hfirst, hentries, hlen, hlast⟩ :=
    getLogPageEntries_ok h
  rw [send_header] at hfirst hlast
  obtain ⟨rfl, hgen⟩ := Prod.mk.inj (Except.ok.inj hfirst)
  have hsame : (logs n).genCtr = (logs 0).genCtr := by
    rw [(Prod.mk.inj (Prod.mk.inj (Except.ok.inj hlast)).2).1, (Prod.mk.inj hgen).1]
  have hseen : ∀ k < n, execute (some (logs 0)) = execute (some (logs k)) := by
    intro k hk
    rw [changes.unchanged (congrArg UInt64.toNat hsame) (Nat.le_of_lt hk)]
  have hconst := @getEntries_congr _ (fun _ => execute (some (logs 0))) _ _ _ _ _ hentries hseen
  rw [(logs 0).header_numRec] at hlen
  obtain ⟨fits, heq⟩ := getEntries_ok hconst hlen
  refine ⟨?_, heq, ?_⟩
  · rw [send_header, ← (logs 0).header_numRec, UInt64.ofNat_toNat]
  · rw [heq, NvmefDiscRspPageEntry.map_onWire_eq_self fits]

end Snapshot

/-- Without pagination, what happens after the third request does not matter. -/
theorem getLogPageEntries_whole {logs : Nat → DiscoveryLog} {log : DiscoveryLog} {fuel : Nat}
    (hN : log.entries.length + 1 < 2 ^ 22) (fits : ∀ e ∈ log.entries, e.Fits)
    (hlogs : ∀ k < 3, logs k = log) :
    getLogPageEntries (fun k => execute (some (logs k))) false fuel =
      some (.ok (log.entries.map onWire)) := by
  have hserver : execute (some (logs 1)) = execute (some log) := by
    rw [hlogs 1 (by omega)]
  have hentries := @getEntries_whole log fuel (fun k => execute (some (logs k))) hserver hN fits
  simp [getLogPageEntries, hlogs 0 (by omega), hlogs 2 (by omega), send_header, hentries,
    log.header_numRec]

/-- The log is emptied after the three requests without pagination. -/
def sampleLogs (k : Nat) : DiscoveryLog := if k < 3 then sampleLog else ⟨[], 8, by decide⟩

theorem sampleLogs_observed : Version.Observed (fun log => log.genCtr.toNat) sampleLogs := by
  refine ⟨fun k => ?_⟩
  by_cases hk : k = 2
  · subst hk
    have hbefore : sampleLogs 2 = sampleLog := if_pos (by decide)
    have hafter : sampleLogs (2 + 1) = ⟨[], 8, by decide⟩ := if_neg (by decide)
    rw [hbefore, hafter]
    exact .single (show (7 : UInt64).toNat < (8 : UInt64).toNat by decide)
  · have hsame : sampleLogs (k + 1) = sampleLogs k := by
      simp only [sampleLogs]
      split <;> split <;> first | rfl | omega
    rw [hsame]

theorem sampleLogs_retrieved :
    getLogPageEntries (fun k => execute (some (sampleLogs k))) false 0 =
      some (.ok (sampleLog.entries.map onWire)) :=
  getLogPageEntries_whole (by decide) sampleLog_fits fun _ hk => if_pos hk

theorem log_page_snapshot_emptied : (sampleLogs 3).entries = [] ∧
    ∃ entries, getLogPageEntries (fun k => execute (some (sampleLogs k))) false 0 =
      some (.ok entries) ∧ entries = (sampleLogs 0).entries.map onWire :=
  ⟨rfl, _, sampleLogs_retrieved, (log_page_snapshot sampleLogs_observed sampleLogs_retrieved).2.1⟩

/-- The entries are those of no log in the run, byte for byte. -/
theorem log_page_snapshot_padded : Version.Observed (fun log => log.genCtr.toNat) sampleLogs ∧
    ∃ entries, getLogPageEntries (fun k => execute (some (sampleLogs k))) false 0 =
      some (.ok entries) ∧ ∀ k, entries ≠ (sampleLogs k).entries := by
  refine ⟨sampleLogs_observed, _, sampleLogs_retrieved, fun k => ?_⟩
  by_cases hk : k < 3
  · rw [sampleLogs, if_pos hk]
    exact sampleLog_padded
  · rw [sampleLogs, if_neg hk]
    simp [sampleLog]

end TcpQueue

end DiscoveryClient
