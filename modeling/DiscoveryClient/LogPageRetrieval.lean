import DiscoveryClient.LogPageClient

namespace DiscoveryClient

namespace TcpQueue

open NvmefDiscRspPageEntry (onWire)

section Pages

variable {log : DiscoveryLog} {j : Nat}

/-- The entries of the page that starts at entry `j`. -/
def page (log : DiscoveryLog) (j : Nat) : List NvmefDiscRspPageEntry := (log.entries.drop j).take 3

theorem page_offset (hj : j < log.entries.length) :
    (UInt64.ofNat (j * 1024)).toNat = 1024 * j := by
  have hlt := log.length_lt
  rw [UInt64.toNat_ofNat', Nat.mod_eq_of_lt (by omega)]
  omega

theorem page_len (offset : UInt64) :
    (newNvmeGetDiscoveryLogPageRequest 4096 offset).getLogPageLen.toNat = 1024 * (3 + 1) := by
  rw [getLogPageLen_new]
  rfl

/-- A page is written behind the header, or behind the entry that is sent once more in its place. -/
theorem page_execute (hj : j < log.entries.length) (h3 : j % 3 = 0) :
    ∃ (w : ScatterListWriter) (done : List UInt8) (again : List NvmefDiscRspPageEntry),
      w.sgl.At w.index w.offset (done ++ List.replicate (1024 * (again.length + 3)) 0) done.length ∧
      done.length + 1024 * again.length = 1024 ∧ again ⊆ log.entries.take j ∧
      execute (some log) (newNvmeGetDiscoveryLogPageRequest 4096 (.ofNat (j * 1024))) =
        (writeEntries w (again ++ page log j)).map completed := by
  by_cases hzero : j = 0
  · subst hzero
    have hoffset := getLogPageOffset_new 4096 (.ofNat (0 * 1024))
    obtain ⟨w, hat, hexec⟩ := execute_first log (page_len _) hoffset
    refine ⟨w, log.header.record, [], ?_, ?_, List.nil_subset _, hexec⟩
    · rwa [List.length_nil, Nat.zero_add]
    · rw [List.length_nil, Nat.mul_zero, log.header.record_length]
  · have hoffset : (newNvmeGetDiscoveryLogPageRequest 4096
        (.ofNat (j * 1024))).getLogPageOffset.toNat = 1024 * (j - 1 + 1) := by
      rw [getLogPageOffset_new, page_offset hj]
      omega
    obtain ⟨w, hat, hexec⟩ := execute_later log (page_len _) hoffset (by omega)
    have hsent : (log.entries.drop (j - 1)).take (3 + 1) = [log.entries[j - 1]] ++ page log j := by
      have hnext : j - 1 + 1 = j := by omega
      rw [List.drop_eq_getElem_cons (by omega), List.take_succ_cons, page, hnext]
      rfl
    rw [hsent] at hexec
    refine ⟨w, [], [log.entries[j - 1]], hat, rfl, ?_, hexec⟩
    intro e he
    rw [List.mem_singleton.mp he]
    exact List.mem_take_iff_getElem.mpr ⟨j - 1, by omega, rfl⟩

theorem page_length (log : DiscoveryLog) (j : Nat) :
    (page log j).length = min 3 (log.entries.length - j) := by
  rw [page, List.length_take, List.length_drop]

theorem send_page (hj : j < log.entries.length) (h3 : j % 3 = 0)
    (before : ∀ e ∈ log.entries.take j, e.Fits) (fits : ∀ e ∈ page log j, e.Fits) :
    ∃ numRec genCtr, sendDiscLogPageRequest (execute (some log)) 4096 (.ofNat (j * 1024))
      log.header.numRec = .ok (numRec, genCtr, (page log j).map onWire) := by
  obtain ⟨w, done, again, hat, hdone, hagain, hexec⟩ := page_execute hj h3
  have hall : ∀ e ∈ again ++ page log j, e.Fits := by
    intro e he
    rcases List.mem_append.mp he with he | he
    · exact before e (hagain he)
    · exact fits e he
  have hpage := page_length log j
  have hlen : (again ++ page log j).length = again.length + (page log j).length := List.length_append
  obtain ⟨w', hwrite, hcopy⟩ := writeEntries_fit hat hall (by omega)
  have hrecords : records (again ++ page log j) = records again ++ records (page log j) := by
    simp [records]
  have hfirst : (done ++ records again).length = 1024 := by
    rw [List.length_append, records_length fun e he => hall e (by simp [he])]
    exact hdone
  let tail : List UInt8 :=
    List.replicate (1024 * (again.length + 3) - 1024 * (again ++ page log j).length) 0
  have hpayload : w'.sgl.copyOut = (done ++ records again) ++ (records (page log j) ++ tail) := by
    rw [hcopy, hrecords]
    simp only [List.append_assoc, tail]
  rw [hwrite, Option.map_some, completed, hpayload] at hexec
  apply send_of_payload hexec
  · rw [List.length_append]
    omega
  · rw [List.drop_left' hfirst, log.header_numRec, page_offset hj]
    apply recvLogPageDataPdu_records fits
    by_cases hlast : (page log j).length = log.entries.length - 1024 * j / 1024
    · exact Or.inl hlast
    · right
      have htail : tail.length =
          1024 * (again.length + 3) - 1024 * (again ++ page log j).length := List.length_replicate
      omega

theorem send_page_unfit (hj : j < log.entries.length) (h3 : j % 3 = 0)
    (unfit : ¬∀ e ∈ page log j, e.Fits) (num : UInt64) :
    sendDiscLogPageRequest (execute (some log)) 4096 (.ofNat (j * 1024)) num = .error .aborted := by
  obtain ⟨w, done, again, hat, -, -, hexec⟩ := page_execute hj h3
  have hpage := page_length log j
  have hnone : writeEntries w (again ++ page log j) = none := by
    apply writeEntries_unfit hat
    · intro hall
      exact unfit fun e he => hall e (by simp [he])
    · rw [List.length_append]
      omega
  rw [hnone] at hexec
  exact send_of_none hexec

theorem take_page (log : DiscoveryLog) (j : Nat) :
    log.entries.take j ++ page log j = log.entries.take (j + 3) := by
  rw [List.take_add, page]

theorem map_take_page (log : DiscoveryLog) (j : Nat) :
    (log.entries.take j).map onWire ++ (page log j).map onWire =
      (log.entries.take (j + 3)).map onWire := by
  rw [← List.map_append, take_page]

theorem map_take_length (hj : j < log.entries.length) :
    ((log.entries.take j).map onWire).length = j := by
  rw [List.length_map, List.length_take]
  omega

/-- A round of the loop over the pages: what it has read of the log grows by a page. -/
theorem getPages_round (hj : j < log.entries.length) (h3 : j % 3 = 0)
    (before : ∀ e ∈ log.entries.take j, e.Fits) (fits : ∀ e ∈ page log j, e.Fits) (fuel n : Nat) :
    getPages (fun _ => execute (some log)) log.header.numRec (fuel + 1) n
        ((log.entries.take j).map onWire) =
      getPages (fun _ => execute (some log)) log.header.numRec fuel (n + 1)
        ((log.entries.take (j + 3)).map onWire) := by
  obtain ⟨numRec, genCtr, hsend⟩ := send_page hj h3 before fits
  rw [getPages, map_take_length hj, log.header_numRec, if_pos hj, hsend]
  simp only [map_take_page]

/-- The loop over the pages of a log that does not change. Up to the last page, the entries so far
are a multiple of three. -/
theorem getPages_fit (fits : ∀ e ∈ log.entries, e.Fits) {fuel : Nat}
    (h3 : j % 3 = 0 ∨ log.entries.length ≤ j) (hfuel : log.entries.length - j < fuel) (n : Nat) :
    ∃ n', getPages (fun _ => execute (some log)) log.header.numRec fuel n
      ((log.entries.take j).map onWire) = some (.ok (log.entries.map onWire, n')) := by
  induction fuel generalizing j n with
  | zero => omega
  | succ fuel ih =>
    by_cases hj : j < log.entries.length
    · have hmod : j % 3 = 0 := by omega
      rw [getPages_round hj hmod (fun e he => fits e (List.mem_of_mem_take he))
        (fun e he => fits e (List.mem_of_mem_drop (List.mem_of_mem_take he)))]
      exact ih (by omega) (by omega) (n + 1)
    · rw [getPages, List.take_of_length_le (by omega), List.length_map, log.header_numRec,
        if_neg (by omega)]
      exact ⟨n, rfl⟩

theorem getPages_unfit (unfit : ¬∀ e ∈ log.entries, e.Fits) {fuel : Nat} (h3 : j % 3 = 0)
    (before : ∀ e ∈ log.entries.take j, e.Fits) (hfuel : log.entries.length - j < fuel) (n : Nat) :
    getPages (fun _ => execute (some log)) log.header.numRec fuel n
      ((log.entries.take j).map onWire) = some (.error .aborted) := by
  induction fuel generalizing j n with
  | zero => omega
  | succ fuel ih =>
    have hj : j < log.entries.length := by
      refine Nat.lt_of_not_le fun hle => unfit ?_
      rwa [List.take_of_length_le hle] at before
    by_cases hpage : ∀ e ∈ page log j, e.Fits
    · rw [getPages_round hj h3 before hpage]
      refine ih (by omega) ?_ (by omega) (n + 1)
      intro e he
      rw [← take_page, List.mem_append] at he
      exact he.elim (before e) (hpage e)
    · rw [getPages, map_take_length hj, log.header_numRec, if_pos hj,
        send_page_unfit hj h3 hpage]

end Pages

section Whole

variable {log : DiscoveryLog} {m : Nat}

/-- The size of the one request without pagination has 32 bits. -/
theorem requestSize_toNat (log : DiscoveryLog) :
    (1024 + log.header.numRec.toUInt32 * 1024).toNat = 1024 * ((log.entries.length + 1) % 2 ^ 22) := by
  have hnum : log.header.numRec.toUInt32.toNat = log.entries.length := by
    rw [UInt64.toNat_toUInt32, log.header_numRec, Nat.mod_eq_of_lt log.length_lt]
  have hk : (1024 : UInt32).toNat = 1024 := rfl
  rw [UInt32.toNat_add, UInt32.toNat_mul, hnum, hk]
  omega

theorem whole_execute (hm : (log.entries.length + 1) % 2 ^ 22 = m + 1) :
    ∃ w : ScatterListWriter,
      w.sgl.At w.index w.offset (log.header.record ++ List.replicate (1024 * m) 0)
        log.header.record.length ∧
      execute (some log)
          (newNvmeGetDiscoveryLogPageRequest (1024 + log.header.numRec.toUInt32 * 1024) 0) =
        (writeEntries w (log.entries.take m)).map completed := by
  apply execute_first log _ (getLogPageOffset_new _ 0)
  rw [getLogPageLen_new, requestSize_toNat, hm]
  omega

theorem send_whole (hm : (log.entries.length + 1) % 2 ^ 22 = m + 1)
    (fits : ∀ e ∈ log.entries.take m, e.Fits) :
    sendDiscLogPageRequest (execute (some log)) (1024 + log.header.numRec.toUInt32 * 1024) 0
      log.header.numRec = .ok (log.header.numRec, log.genCtr, (log.entries.take m).map onWire) := by
  have hle : m ≤ log.entries.length := by omega
  have hlen : (log.entries.take m).length = m := by
    rw [List.length_take]
    omega
  obtain ⟨w, hat, hexec⟩ := whole_execute hm
  obtain ⟨w', hwrite, hcopy⟩ := writeEntries_fit hat fits (by omega)
  rw [hlen, Nat.sub_self, List.replicate_zero, List.append_assoc] at hcopy
  rw [hwrite, Option.map_some, completed, hcopy] at hexec
  apply send_of_header hexec
  apply recvLogPageDataPdu_records fits
  right
  rw [hlen, log.header_numRec]
  exact ⟨hle, by decide⟩

theorem send_whole_unfit (hm : (log.entries.length + 1) % 2 ^ 22 = m + 1)
    (unfit : ¬∀ e ∈ log.entries.take m, e.Fits) :
    sendDiscLogPageRequest (execute (some log)) (1024 + log.header.numRec.toUInt32 * 1024) 0
      log.header.numRec = .error .aborted := by
  obtain ⟨w, hat, hexec⟩ := whole_execute hm
  rw [writeEntries_unfit hat unfit (by rw [List.length_take]; omega)] at hexec
  exact send_of_none hexec

/-- For 2^22 - 1 entries the size of the request is zero. -/
theorem send_whole_no_data (hzero : (log.entries.length + 1) % 2 ^ 22 = 0) :
    sendDiscLogPageRequest (execute (some log)) (1024 + log.header.numRec.toUInt32 * 1024) 0
      log.header.numRec = .error .aborted := by
  apply send_of_none
  apply execute_no_data log _ (getLogPageOffset_new _ 0)
  apply UInt32.toNat_inj.mp
  rw [getLogPageLen_new, requestSize_toNat, hzero]
  rfl

end Whole

section Retrieval

variable {log : DiscoveryLog} {fuel : Nat}

theorem getEntries_whole {server : Server} (hserver : server 1 = execute (some log))
    (hN : log.entries.length + 1 < 2 ^ 22) (fits : ∀ e ∈ log.entries, e.Fits) :
    getEntries server false fuel log.header.numRec = some (.ok (log.entries.map onWire, 2)) := by
  have hall : log.entries.take log.entries.length = log.entries := List.take_length
  have hsend := send_whole (Nat.mod_eq_of_lt hN) (by rwa [hall])
  rw [hall] at hsend
  simp only [getEntries, hserver, hsend]
  rfl

theorem getEntries_fit (paginated : Bool) (hN : log.entries.length + 1 < 2 ^ 22)
    (hfuel : log.entries.length < fuel) (fits : ∀ e ∈ log.entries, e.Fits) :
    ∃ n, getEntries (fun _ => execute (some log)) paginated fuel log.header.numRec =
      some (.ok (log.entries.map onWire, n)) := by
  cases paginated with
  | true => exact @getPages_fit log 0 fits fuel (Or.inl rfl) (by omega) 1
  | false => exact ⟨2, getEntries_whole rfl hN fits⟩

theorem getEntries_unfit (paginated : Bool) (hN : log.entries.length + 1 < 2 ^ 22)
    (hfuel : log.entries.length < fuel) (unfit : ¬∀ e ∈ log.entries, e.Fits) :
    getEntries (fun _ => execute (some log)) paginated fuel log.header.numRec =
      some (.error .aborted) := by
  cases paginated with
  | true => exact @getPages_unfit log 0 unfit fuel rfl (by simp) (by omega) 1
  | false =>
    have hall : log.entries.take log.entries.length = log.entries := List.take_length
    have hsend := send_whole_unfit (Nat.mod_eq_of_lt hN) (by rwa [hall])
    simp only [getEntries, hsend]
    rfl

theorem getLogPageEntries_fit (paginated : Bool) (hN : log.entries.length + 1 < 2 ^ 22)
    (hfuel : log.entries.length < fuel) (fits : ∀ e ∈ log.entries, e.Fits) :
    getLogPageEntries (fun _ => execute (some log)) paginated fuel =
      some (.ok (log.entries.map onWire)) := by
  obtain ⟨n, hentries⟩ := getEntries_fit paginated hN hfuel fits
  simp [getLogPageEntries, send_header, hentries, log.header_numRec]

theorem getLogPageEntries_unfit (paginated : Bool) (hN : log.entries.length + 1 < 2 ^ 22)
    (hfuel : log.entries.length < fuel) (unfit : ¬∀ e ∈ log.entries, e.Fits) :
    getLogPageEntries (fun _ => execute (some log)) paginated fuel = some (.error .aborted) := by
  simp [getLogPageEntries, send_header, getEntries_unfit paginated hN hfuel unfit]

/-- Both modes return the entries in order, with their strings padded to the 256 bytes of the
fields. A string that is longer than its field is fatal to the server. -/
theorem log_page_retrieved (log : DiscoveryLog) (paginated : Bool) (fuel : Nat)
    (hN : log.entries.length + 1 < 2 ^ 22) (hfuel : log.entries.length < fuel) :
    getLogPageEntries (fun _ => execute (some log)) paginated fuel =
      (if ∀ e ∈ log.entries, e.subnqn.length ≤ 256 ∧ e.traddr.length ≤ 256 then
        some (.ok (log.entries.map onWire)) else some (.error .aborted)) ∧
    (getLogPageEntries (fun _ => execute (some log)) paginated fuel = some (.ok log.entries) ↔
      ∀ e ∈ log.entries, e.subnqn.length = 256 ∧ e.traddr.length = 256) ∧
    (log.entries.map onWire).map discoverEntry = log.entries.map discoverEntry := by
  have hpadded : (log.entries.map onWire).map discoverEntry = log.entries.map discoverEntry := by
    simp [NvmefDiscRspPageEntry.discoverEntry_onWire]
  by_cases fits : ∀ e ∈ log.entries, e.Fits
  · have hok := getLogPageEntries_fit paginated hN hfuel fits
    refine ⟨by rw [hok]; exact (if_pos fits).symm, ?_, hpadded⟩
    rw [hok, Option.some_inj, Except.ok.injEq, NvmefDiscRspPageEntry.map_onWire_eq_self fits]
  · have herror := getLogPageEntries_unfit paginated hN hfuel fits
    refine ⟨by rw [herror]; exact (if_neg fits).symm, ?_, hpadded⟩
    rw [herror]
    refine iff_of_false (by simp) fun hlen => fits fun e he => ?_
    exact ⟨Nat.le_of_eq (hlen e he).1, Nat.le_of_eq (hlen e he).2⟩

end Retrieval

open GoString (ascii)

/-- An entry for one port, with the strings a discovery service sets. -/
def samplePageEntry (portID : UInt16) : NvmefDiscRspPageEntry :=
  { trType := 3, adrFam := 1, subType := 2, treq := 0, portID, cntlID := 0xffff, asqsz := 128
    resv8 := .replicate 22 0, trsvcID := .replicate 32 0x38, resv64 := .replicate 192 0
    subnqn := ascii "nqn.s", traddr := ascii "10.0.0.1", tsas := .replicate 256 0 }

/-- Four entries: they take two pages. -/
def sampleLog : DiscoveryLog := ⟨[1, 2, 3, 4].map samplePageEntry, 7, by decide⟩

theorem sampleLog_fits : ∀ e ∈ sampleLog.entries, e.Fits := by
  intro e he
  obtain ⟨portID, -, rfl⟩ := List.mem_map.mp he
  have hsubnqn : (ascii "nqn.s").length ≤ 256 := by decide
  have htraddr : (ascii "10.0.0.1").length ≤ 256 := by decide
  exact ⟨hsubnqn, htraddr⟩

theorem log_page_retrieved_two_pages :
    getLogPageEntries (fun _ => execute (some sampleLog)) true 5 =
      some (.ok (sampleLog.entries.map onWire)) ∧
    getLogPageEntries (fun _ => execute (some sampleLog)) false 5 =
      some (.ok (sampleLog.entries.map onWire)) :=
  ⟨(log_page_retrieved sampleLog true 5 (by decide) (by decide)).1.trans (if_pos sampleLog_fits),
    (log_page_retrieved sampleLog false 5 (by decide) (by decide)).1.trans (if_pos sampleLog_fits)⟩

theorem sampleLog_padded : sampleLog.entries.map onWire ≠ sampleLog.entries := by
  rw [ne_eq, NvmefDiscRspPageEntry.map_onWire_eq_self sampleLog_fits]
  intro hall
  exact absurd (hall (samplePageEntry 1) (by simp [sampleLog])).1 (by decide)

/-- The entries that are returned are not those of the log: their strings end in NUL bytes. -/
theorem log_page_padded :
    getLogPageEntries (fun _ => execute (some sampleLog)) true 5 ≠ some (.ok sampleLog.entries) ∧
    getLogPageEntries (fun _ => execute (some sampleLog)) false 5 ≠ some (.ok sampleLog.entries) := by
  rw [getLogPageEntries_fit true (by decide) (by decide) sampleLog_fits,
    getLogPageEntries_fit false (by decide) (by decide) sampleLog_fits]
  simpa using sampleLog_padded

end TcpQueue

end DiscoveryClient
