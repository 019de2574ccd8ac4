import DiscoveryClient.LogPageSnapshot

namespace DiscoveryClient

namespace TcpQueue

/-- The loop with pagination and the comparison behind it, when they take at most `requests` page
requests: an error is returned in the round of its request, and the last round makes none. -/
def paginate (server : Server) (numRec : UInt64) (requests : Nat) :
    Option (Except LogPageError (List NvmefDiscRspPageEntry)) :=
  match getPages server numRec requests 1 [] with
  | some (.error err) => some (.error err)
  | _ =>
    match getPages server numRec (requests + 1) 1 [] with
    | some (.ok (res, _)) =>
      some (if res.length ≠ numRec.toNat then .error .numRec else .ok res)
    | _ => none

/-- The loop ends in time, does not panic, and yields what was announced or an error. -/
def EndsAnnounced (server : Server) (numRec : UInt64) : Prop :=
  ∃ result, paginate server numRec numRec.toNat = some result ∧ result ≠ .error .nilData ∧
    ∀ res, result = .ok res → res.length = numRec.toNat

/-- No reply, or one that is too short for a header, or one with an entry behind its header. -/
def Progresses : Option Reply → Prop
  | none => True
  | some ⟨_, none⟩ => False
  | some ⟨_, some payload⟩ => (0 < payload.length ∧ payload.length < 1024) ∨ 2048 ≤ payload.length

section Round

variable {server : GetLogPageCommand → Option Reply} {size : UInt32} {offset num : UInt64}

theorem recvLogPageDataPdu_entry {num : Nat} {pduReader : List UInt8} (hnum : 0 < num)
    (hlen : 1024 ≤ pduReader.length) : recvLogPageDataPdu num pduReader ≠ .ok [] := by
  obtain ⟨num, rfl⟩ : ∃ n, num = n + 1 := ⟨num - 1, by omega⟩
  rw [recvLogPageDataPdu, if_neg (by omega)]
  split
  next => simp
  next entry rest _ => cases recvLogPageDataPdu num rest <;> simp [Except.map]

/-- A reply that progresses ends the loop with an error or adds an entry to the result. -/
theorem send_progress (hreply : Progresses (server (newNvmeGetDiscoveryLogPageRequest size offset)))
    (hnum : offset.toNat / 1024 < num.toNat) :
    (∃ err, sendDiscLogPageRequest server size offset num = .error err ∧ err ≠ .nilData) ∨
      ∃ numRec genCtr entries,
        sendDiscLogPageRequest server size offset num = .ok (numRec, genCtr, entries) ∧
          entries ≠ [] := by
  rcases hserver : server (newNvmeGetDiscoveryLogPageRequest size offset) with _ | ⟨status, data⟩
  · exact Or.inl ⟨.aborted, send_of_none hserver, by decide⟩
  rw [hserver] at hreply
  rcases data with _ | payload
  · exact hreply.elim
  have hpayload : (0 < payload.length ∧ payload.length < 1024) ∨ 2048 ≤ payload.length := hreply
  rcases hpayload with ⟨hpos, hshort⟩ | hlong
  · exact Or.inl ⟨.header, send_of_short hserver hpos hshort, by decide⟩
  obtain ⟨entries, hentries⟩ :=
    recvLogPageDataPdu_total (num.toNat - offset.toNat / 1024) (payload.drop 1024)
  obtain ⟨numRec, genCtr, hsend⟩ := send_of_payload hserver (by omega) hentries
  refine Or.inr ⟨numRec, genCtr, entries, hsend, ?_⟩
  rintro rfl
  exact recvLogPageDataPdu_entry (by omega) (by rw [List.length_drop]; omega) hentries

/-- A reply that does not is a panic, or leaves the result of the loop as it was. -/
theorem send_stall (hreply : ¬Progresses (server (newNvmeGetDiscoveryLogPageRequest size offset))) :
    sendDiscLogPageRequest server size offset num = .error .nilData ∨
      ∃ numRec genCtr,
        sendDiscLogPageRequest server size offset num = .ok (numRec, genCtr, []) := by
  rcases hserver : server (newNvmeGetDiscoveryLogPageRequest size offset) with _ | ⟨status, data⟩
  · rw [hserver] at hreply
    exact absurd trivial hreply
  rw [hserver] at hreply
  rcases data with _ | payload
  · exact Or.inl (send_of_no_data hserver)
  right
  have hpayload : ¬((0 < payload.length ∧ payload.length < 1024) ∨ 2048 ≤ payload.length) := hreply
  rcases Nat.eq_zero_or_pos payload.length with hzero | hpos
  · rw [List.length_eq_zero_iff.mp hzero] at hserver
    exact ⟨0, 0, send_of_empty hserver⟩
  · have hshort : (payload.drop 1024).length < 1024 := by
      rw [List.length_drop]
      omega
    apply send_of_payload hserver (by omega)
    cases num.toNat - offset.toNat / 1024 with
    | zero => rfl
    | succ n => rw [recvLogPageDataPdu, if_pos hshort]

end Round

section Loop

variable {server : Server} {numRec : UInt64}

theorem paginate_of_error {requests : Nat} {err : LogPageError}
    (h : getPages server numRec requests 1 [] = some (.error err)) :
    paginate server numRec requests = some (.error err) := by
  rw [paginate, h]

theorem paginate_of_ok {requests n : Nat} {res : List NvmefDiscRspPageEntry}
    (h : getPages server numRec (requests + 1) 1 [] = some (.ok (res, n))) :
    paginate server numRec requests =
      some (if res.length ≠ numRec.toNat then .error .numRec else .ok res) := by
  rw [paginate]
  split
  next err herr =>
    have hmore := getPages_fuel herr 1
    rw [h] at hmore
    simp at hmore
  next => rw [h]

theorem paginate_cases {requests : Nat} {result : Except LogPageError (List NvmefDiscRspPageEntry)}
    (h : paginate server numRec requests = some result) :
    (∃ err, result = .error err ∧ getPages server numRec requests 1 [] = some (.error err)) ∨
      ∃ res n, getPages server numRec (requests + 1) 1 [] = some (.ok (res, n)) ∧
        result = if res.length ≠ numRec.toNat then .error .numRec else .ok res := by
  rw [paginate] at h
  split at h
  next err herr => exact Or.inl ⟨err, (Option.some.inj h).symm, herr⟩
  next =>
    split at h
    next res n hok => exact Or.inr ⟨res, n, hok, (Option.some.inj h).symm⟩
    next => simp at h

/-- What the loop and the comparison end with is what the discovery goes on with. -/
theorem getLogPageEntries_of_paginate {requests : Nat} {genCtr : UInt64}
    {es : List NvmefDiscRspPageEntry} {result : Except LogPageError (List NvmefDiscRspPageEntry)}
    (hfirst : sendDiscLogPageRequest (server 0) 1024 0 0 = .ok (numRec, genCtr, es))
    (h : paginate server numRec requests = some result) :
    (∃ err, result = .error err ∧
      getLogPageEntries server true (requests + 1) = some (.error err)) ∨
    ∃ res n, result = .ok res ∧ getLogPageEntries server true (requests + 1) =
      match sendDiscLogPageRequest (server n) 1024 0 0 with
      | .error err => some (.error err)
      | .ok (_, newGenCtr, _) =>
        if genCtr ≠ newGenCtr then some (.error .genCtr) else some (.ok res) := by
  rcases paginate_cases h with ⟨err, rfl, herr⟩ | ⟨res, n, hok, rfl⟩
  · left
    refine ⟨err, rfl, ?_⟩
    simp only [getLogPageEntries, hfirst, getEntries, if_true, getPages_fuel herr 1]
  · simp only [getLogPageEntries, hfirst, getEntries, if_true, hok]
    by_cases hlen : res.length = numRec.toNat
    · right
      refine ⟨res, n, by simp [hlen], ?_⟩
      exact if_neg (by simp [hlen])
    · left
      exact ⟨.numRec, by simp [hlen], by rw [if_pos hlen]⟩

/-- The entries still missing bound the requests still made: each round adds one or ends the loop. -/
theorem getPages_ends (hserver : ∀ n cmd, Progresses (server n cmd)) (requests : Nat) {n : Nat}
    {res : List NvmefDiscRspPageEntry} (hres : numRec.toNat ≤ res.length + requests) :
    (∃ err, getPages server numRec requests n res = some (.error err) ∧ err ≠ .nilData) ∨
      ∃ all next, getPages server numRec (requests + 1) n res = some (.ok (all, next)) := by
  induction requests generalizing n res with
  | zero => exact Or.inr ⟨res, n, by rw [getPages, if_neg (by omega)]⟩
  | succ requests ih =>
    by_cases hlt : res.length < numRec.toNat
    · have hoffset : (UInt64.ofNat (res.length * 1024)).toNat / 1024 < numRec.toNat := by
        rw [UInt64.toNat_ofNat']
        omega
      rw [getPages, if_pos hlt, getPages, if_pos hlt]
      rcases send_progress (hserver n _) hoffset with ⟨err, hsend, herr⟩ | ⟨a, b, es, hsend, hes⟩
      · left
        exact ⟨err, by rw [hsend], herr⟩
      · have hpos := List.length_pos_iff.mpr hes
        simp only [hsend]
        exact ih (by rw [List.length_append]; omega)
    · exact Or.inr ⟨res, n, by rw [getPages, if_neg hlt]⟩

theorem endsAnnounced_of_progresses (hserver : ∀ n cmd, Progresses (server n cmd)) :
    EndsAnnounced server numRec := by
  rcases @getPages_ends server numRec hserver numRec.toNat 1 [] (by simp) with
    ⟨err, hpages, herr⟩ | ⟨res, n, hpages⟩
  · refine ⟨.error err, paginate_of_error hpages, ?_, ?_⟩
    · simpa using herr
    · simp
  · refine ⟨_, paginate_of_ok hpages, ?_, ?_⟩
    · split <;> simp
    · intro all hall
      split at hall
      next => simp at hall
      next heq =>
        cases Except.ok.inj hall
        omega

/-- Replies that do not progress leave the loop where it is, for as long as it is run. -/
theorem getPages_stalls (hserver : ∀ n cmd, ¬Progresses (server n cmd)) (hnum : numRec ≠ 0)
    (fuel n : Nat) :
    getPages server numRec fuel n [] = none ∨
      getPages server numRec fuel n [] = some (.error .nilData) := by
  have hpos : ([] : List NvmefDiscRspPageEntry).length < numRec.toNat := by
    have hne : numRec.toNat ≠ 0 := fun h => hnum (UInt64.toNat_inj.mp h)
    simp only [List.length_nil]
    omega
  induction fuel generalizing n with
  | zero => exact Or.inl rfl
  | succ fuel ih =>
    rw [getPages, if_pos hpos]
    rcases @send_stall (server n) 4096 (.ofNat (([] : List NvmefDiscRspPageEntry).length * 1024))
      numRec (hserver n _) with hsend | ⟨a, b, hsend⟩
    · exact Or.inr (by rw [hsend])
    · simp only [hsend]
      exact ih (n + 1)

theorem not_endsAnnounced_of_stalls (hserver : ∀ n cmd, ¬Progresses (server n cmd))
    (hnum : numRec ≠ 0) : ¬EndsAnnounced server numRec := by
  rintro ⟨result, hresult, hpanic, -⟩
  rcases paginate_cases hresult with ⟨err, rfl, herr⟩ | ⟨res, n, hok, -⟩
  · rcases getPages_stalls hserver hnum numRec.toNat 1 with hnone | hnil
    · simp [hnone] at herr
    · rw [hnil] at herr
      cases Except.error.inj (Option.some.inj herr)
      exact hpanic rfl
  · rcases getPages_stalls hserver hnum (numRec.toNat + 1) 1 with hnone | hnil
    · simp [hnone] at hok
    · simp [hnil] at hok

end Loop

/-- Of the replies a server may send, those that do not progress are the ones that keep the loop
from ending as announced: one of them, sent again and again, is enough. -/
theorem pagination_ends_iff (numRec : UInt64) (allowed : Option Reply → Prop) :
    (∀ server : Server, (∀ n cmd, allowed (server n cmd)) → EndsAnnounced server numRec) ↔
      numRec = 0 ∨ ∀ reply, allowed reply → Progresses reply := by
  constructor
  · intro h
    by_cases hnum : numRec = 0
    · exact Or.inl hnum
    · refine Or.inr fun reply hreply => ?_
      by_contra hstall
      exact not_endsAnnounced_of_stalls (fun _ _ => hstall) hnum
        (h (fun _ _ => reply) fun _ _ => hreply)
  · rintro (rfl | hprogress) server hserver
    · exact ⟨.ok [], rfl, by simp, by simp⟩
    · exact endsAnnounced_of_progresses fun n cmd => hprogress _ (hserver n cmd)

/-- A server that answers every request with three entries of zeros behind a header. -/
theorem pagination_ends_iff_pages :
    EndsAnnounced (fun _ _ => some ⟨.success, some (List.replicate 4096 0)⟩) 5 := by
  have hlen : 2048 ≤ (List.replicate 4096 (0 : UInt8)).length := by
    rw [List.length_replicate]
    decide
  refine (pagination_ends_iff 5 (· = some ⟨.success, some (List.replicate 4096 0)⟩)).mpr
    (Or.inr ?_) _ fun _ _ => rfl
  rintro reply rfl
  exact Or.inr hlen

/-- A server that answers every page request with an empty data PDU. -/
theorem pagination_stalls : ¬∀ (server : Server) (numRec : UInt64), EndsAnnounced server numRec := by
  intro h
  refine @not_endsAnnounced_of_stalls (fun _ _ => some ⟨.success, some []⟩) 1 ?_ (by decide) (h _ 1)
  intro n cmd hprogress
  rcases hprogress with hshort | hlong
  · exact absurd hshort.1 (by decide)
  · exact absurd hlong (by decide)

end TcpQueue

end DiscoveryClient
