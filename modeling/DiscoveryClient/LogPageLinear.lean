import DiscoveryClient.LogPageRetrieval

namespace DiscoveryClient

/-- The log page as one array of bytes: the header, the entries and then zeros. -/
def DiscoveryLog.bytes (log : DiscoveryLog) (offset length : Nat) : List UInt8 :=
  ((log.header.record ++ records log.entries ++ List.replicate (offset + length) 0).drop
    offset).take length

/-- The records of at most `count` entries, with zeros up to the length of so many. -/
def paddedRecords (count : Nat) (es : List NvmefDiscRspPageEntry) : List UInt8 :=
  records (es.take count) ++ List.replicate (1024 * count - 1024 * (es.take count).length) 0

section Records

variable {es : List NvmefDiscRspPageEntry}

theorem records_append (es es' : List NvmefDiscRspPageEntry) :
    records (es ++ es') = records es ++ records es' := List.flatMap_append

theorem take_records (fits : ∀ e ∈ es, e.Fits) (k : Nat) :
    (records es).take (1024 * k) = records (es.take k) := by
  have htake := records_length (fun e he => fits e (List.mem_of_mem_take he) : ∀ e ∈ es.take k, e.Fits)
  have hsplit : records es = records (es.take k) ++ records (es.drop k) := by
    rw [← records_append, List.take_append_drop]
  by_cases hk : k ≤ es.length
  · have hlen : 1024 * k = (records (es.take k)).length := by
      rw [htake, List.length_take, Nat.min_eq_left hk]
    rw [hlen]
    conv_lhs => rw [hsplit]
    exact List.take_left
  · have hall := records_length fits
    rw [List.take_of_length_le (by omega), List.take_of_length_le (by omega)]

theorem drop_records (fits : ∀ e ∈ es, e.Fits) {k : Nat} (hk : k ≤ es.length) :
    (records es).drop (1024 * k) = records (es.drop k) := by
  have htake := records_length (fun e he => fits e (List.mem_of_mem_take he) : ∀ e ∈ es.take k, e.Fits)
  have hsplit : records es = records (es.take k) ++ records (es.drop k) := by
    rw [← records_append, List.take_append_drop]
  have hlen : 1024 * k = (records (es.take k)).length := by
    rw [htake, List.length_take, Nat.min_eq_left hk]
  rw [hlen]
  conv_lhs => rw [hsplit]
  exact List.drop_left

theorem take_records_zeros (fits : ∀ e ∈ es, e.Fits) {count zeros : Nat}
    (hzeros : 1024 * count ≤ zeros) :
    (records es ++ List.replicate zeros 0).take (1024 * count) = paddedRecords count es := by
  have hlen := records_length fits
  rw [List.take_append, take_records fits, List.take_replicate, paddedRecords, hlen,
    List.length_take]
  congr 2
  omega

theorem paddedRecords_nil (count : Nat) : paddedRecords count [] = List.replicate (1024 * count) 0 := by
  simp [paddedRecords, records]

end Records

section Bytes

variable {log : DiscoveryLog}

theorem DiscoveryLog.bytes_first (fits : ∀ e ∈ log.entries, e.Fits) (m : Nat) :
    log.bytes 0 (1024 * (m + 1)) = log.header.record ++ paddedRecords m log.entries := by
  have hrecord := log.header.record_length
  have hrest : 1024 * (m + 1) - log.header.record.length = 1024 * m := by omega
  rw [bytes, List.drop_zero, List.append_assoc, List.take_append,
    List.take_of_length_le (by omega), hrest, take_records_zeros fits (by omega)]

theorem DiscoveryLog.bytes_later (fits : ∀ e ∈ log.entries, e.Fits) (j m : Nat) :
    log.bytes (1024 * (j + 1)) (1024 * m) = paddedRecords m (log.entries.drop j) := by
  have hrecord := log.header.record_length
  have hskip : 1024 * (j + 1) = log.header.record.length + 1024 * j := by omega
  have hdrop : ∀ e ∈ log.entries.drop j, e.Fits := fun e he => fits e (List.mem_of_mem_drop he)
  have hlen := records_length fits
  rw [bytes, List.append_assoc]
  generalize hzeros : 1024 * (j + 1) + 1024 * m = zeros
  rw [hskip, List.drop_length_add_append, List.drop_append]
  by_cases hj : j ≤ log.entries.length
  · rw [drop_records fits hj, List.drop_replicate]
    exact take_records_zeros hdrop (by omega)
  · have hnil : log.entries.drop j = [] := List.drop_eq_nil_of_le (by omega)
    rw [List.drop_eq_nil_of_le (by omega), hnil, paddedRecords_nil, List.nil_append,
      List.drop_replicate, List.take_replicate]
    congr 1
    omega

end Bytes

theorem writeEntries_overflow {w : ScatterListWriter} {done : List UInt8}
    {es : List NvmefDiscRspPageEntry} {room : Nat}
    (h : w.sgl.At w.index w.offset (done ++ List.replicate room 0) done.length)
    (fits : ∀ e ∈ es, e.Fits) (hroom : room < 1024 * es.length) :
    ∃ err, writeEntries w es = some (.error err) := by
  induction es generalizing w done room with
  | nil => simp at hroom
  | cons e es ih =>
    have hlen := NvmefDiscRspPageEntry.record_length (fits e (by simp))
    rw [List.length_cons] at hroom
    by_cases hfull : 1024 ≤ room
    · obtain ⟨hat, hret⟩ := @ScatterListWriter.write_zeros w done e.record room h (by omega)
      obtain ⟨err, hrest⟩ := @ih (w.write e.record).1 (done ++ e.record) (room - e.record.length)
        hat (fun x hx => fits x (by simp [hx])) (by omega)
      exact ⟨err, by rw [writeEntries_cons (fits e (by simp)) hret, hrest]⟩
    · -- the record is cut off
      obtain ⟨-, hret⟩ := w.write_spec h e.record
      have hne : ¬min e.record.length ((done ++ List.replicate room (0 : UInt8)).length - done.length) =
          e.record.length := by
        rw [List.length_append, List.length_replicate]
        omega
      rw [if_neg hne] at hret
      rcases hw : w.write e.record with ⟨w', n, err⟩
      rw [hw] at hret
      cases (Prod.mk.inj hret).2
      exact ⟨.shortBuffer, by
        simp only [writeEntries, NvmefDiscRspPageEntry.pack_eq (fits e (by simp)), hw]⟩

section Execute

variable {log : DiscoveryLog} {cmd : GetLogPageCommand} {m : Nat}

/-- For the offset right behind the header the header is written once more. -/
theorem execute_header_again (log : DiscoveryLog)
    (hlen : cmd.getLogPageLen.toNat = 1024 * (m + 1)) (hoffset : cmd.getLogPageOffset = 1024) :
    ∃ w : ScatterListWriter,
      w.sgl.At w.index w.offset (log.header.record ++ List.replicate (1024 * m) 0)
        log.header.record.length ∧
      execute (some log) cmd = (writeEntries w (log.entries.take (m + 1))).map completed := by
  obtain ⟨w, hw, hat⟩ := writeHeader_at log hlen
  refine ⟨w, hat, ?_⟩
  obtain ⟨hne, hmax⟩ := getLogPageLen_ne hlen
  have hcount := @numEntries_later cmd.getLogPageLen 1024 (m + 1) hlen (by decide)
  have hpos : (0 : UInt64) < 1024 := by decide
  have hsub : (1024 : UInt64) - 1024 = 0 := by decide
  have hdrop : (0 : UInt64).toNat / 1024 = 0 := rfl
  have hheader : writeHeader { sgl := newScatterList cmd.getLogPageLen.toNat 8192 }
      { genCtr := log.genCtr, numRec := (UInt32.ofNat log.entries.length).toUInt64 } = some w := hw
  simp only [execute, DiscoveryLog.fillDiscoveryLogPage, hoffset, hmax, hcount, if_pos hpos, hsub,
    if_neg hne, if_pos trivial, hheader, hdrop, List.drop_zero, Option.bind_eq_bind,
    Option.bind_some]
  cases writeEntries w (log.entries.take (m + 1)) <;> rfl

theorem completed_fit {w : ScatterListWriter} {done : List UInt8} {count : Nat}
    {es : List NvmefDiscRspPageEntry}
    (h : w.sgl.At w.index w.offset (done ++ List.replicate (1024 * count) 0) done.length)
    (fits : ∀ e ∈ es, e.Fits) :
    (writeEntries w (es.take count)).map completed =
      some ⟨.success, some (done ++ paddedRecords count es)⟩ := by
  have hcount : (es.take count).length ≤ count := by
    rw [List.length_take]
    omega
  obtain ⟨w', hwritten, hout⟩ := writeEntries_fit h
    (fun e he => fits e (List.mem_of_mem_take he) : ∀ e ∈ es.take count, e.Fits) (by omega)
  rw [hwritten, Option.map_some, completed, hout, paddedRecords, List.append_assoc]

end Execute

/-- Two blocks between which a whole number of blocks can be moved are the same. -/
theorem block_eq_of_append_comm {first last xs : List UInt8} {size n : Nat}
    (hfirst : first.length = size) (hlast : last.length = size) (hxs : xs.length = size * n)
    (h : first ++ xs = xs ++ last) : first = last := by
  induction n generalizing xs with
  | zero =>
    have hnil : xs = [] := List.length_eq_zero_iff.mp (by omega)
    simpa [hnil] using h
  | succ n ih =>
    rw [Nat.mul_add, Nat.mul_one] at hxs
    have hsplit : xs = xs.take size ++ xs.drop size := (List.take_append_drop size xs).symm
    rw [hsplit, List.append_assoc] at h
    obtain ⟨heq, htail⟩ := List.append_inj h (by rw [hfirst, List.length_take]; omega)
    apply @ih (xs.drop size)
    · rw [List.length_drop]
      omega
    · rw [← heq] at htail
      exact htail

theorem DiscRspPageHdr.record_zero : ({} : DiscRspPageHdr).record = List.replicate 1024 0 := by
  have hresv : (Vector.replicate 1006 (0 : UInt8)).toList = List.replicate 1006 0 :=
    Vector.toList_replicate
  change Struc.putUint 8 0 ++ (Struc.putUint 8 0 ++ (Struc.putUint 2 0 ++
    ((Vector.replicate 1006 (0 : UInt8)).toList ++ []))) = _
  have hlong : Struc.putUint 8 0 = List.replicate 8 0 := rfl
  have hshort : Struc.putUint 2 0 = List.replicate 2 0 := rfl
  rw [hresv, hlong, hshort, List.append_nil]
  simp only [List.replicate_append_replicate, Nat.reduceAdd]

theorem DiscoveryLog.header_record_zero_iff (log : DiscoveryLog) :
    log.header.record = List.replicate 1024 0 ↔ log.genCtr = 0 ∧ log.entries = [] := by
  have hnum := log.header_numRec
  constructor
  · intro h
    have hread := log.header.unpack_record []
    rw [h, ← DiscRspPageHdr.record_zero, DiscRspPageHdr.unpack_record] at hread
    have heq : ({} : DiscRspPageHdr) = log.header := congrArg Prod.fst (Option.some.inj hread)
    rw [← heq] at hnum
    have hgen : (0 : UInt64) = log.genCtr := congrArg DiscRspPageHdr.genCtr heq
    exact ⟨hgen.symm, List.length_eq_zero_iff.mp hnum.symm⟩
  · rintro ⟨hgen, hnil⟩
    have heq : log.header = {} := by
      simp [header, hgen, hnil]
    rw [heq, DiscRspPageHdr.record_zero]

section Linear

variable {log : DiscoveryLog} {cmd : GetLogPageCommand} {m : Nat}

theorem execute_at_zero (fits : ∀ e ∈ log.entries, e.Fits)
    (hlen : cmd.getLogPageLen.toNat = 1024 * (m + 1)) (hoffset : cmd.getLogPageOffset = 0) :
    execute (some log) cmd = some ⟨.success, some (log.bytes 0 (1024 * (m + 1)))⟩ := by
  obtain ⟨w, hat, hexec⟩ := execute_first log hlen hoffset
  rw [hexec, completed_fit hat fits, log.bytes_first fits]

theorem execute_behind (fits : ∀ e ∈ log.entries, e.Fits) {j : Nat}
    (hlen : cmd.getLogPageLen.toNat = 1024 * (m + 1))
    (hoffset : cmd.getLogPageOffset.toNat = 1024 * (j + 1)) (hj : 0 < j) :
    execute (some log) cmd =
      some ⟨.success, some (log.bytes (1024 * (j + 1)) (1024 * (m + 1)))⟩ := by
  obtain ⟨w, hat, hexec⟩ := execute_later log hlen hoffset hj
  have hdrop : ∀ e ∈ log.entries.drop j, e.Fits := fun e he => fits e (List.mem_of_mem_drop he)
  have hdone := completed_fit hat hdrop
  rw [List.nil_append] at hdone
  rw [hexec, hdone, log.bytes_later fits]

theorem paddedRecords_of_le {es : List NvmefDiscRspPageEntry} {count : Nat} (h : es.length ≤ count) :
    paddedRecords count es = records es ++ List.replicate (1024 * (count - es.length)) 0 := by
  rw [paddedRecords, List.take_of_length_le h, ← Nat.mul_sub]

/-- The header moved behind the entries: only when it is all zeros does nothing change. -/
theorem header_first_iff (fits : ∀ e ∈ log.entries, e.Fits) (hm : log.entries.length ≤ m) :
    log.header.record ++ paddedRecords m log.entries = paddedRecords (m + 1) log.entries ↔
      log.genCtr = 0 ∧ log.entries = [] := by
  have hrecord := log.header.record_length
  have hlen := records_length fits
  have hzeros : 1024 * (m + 1 - log.entries.length) = 1024 + 1024 * (m - log.entries.length) := by
    omega
  rw [paddedRecords_of_le hm, paddedRecords_of_le (by omega), hzeros, ← List.replicate_append_replicate,
    ← List.append_assoc, ← List.append_assoc, ← log.header_record_zero_iff]
  constructor
  · intro h
    obtain ⟨hmove, -⟩ := List.append_inj' h rfl
    exact block_eq_of_append_comm hrecord List.length_replicate hlen hmove
  · intro h
    have hnil := (log.header_record_zero_iff.mp h).2
    have hempty : records [] = [] := rfl
    rw [h, hnil, hempty, List.nil_append, List.append_nil]

theorem execute_second_iff (fits : ∀ e ∈ log.entries, e.Fits)
    (hlen : cmd.getLogPageLen.toNat = 1024 * (m + 1)) (hoffset : cmd.getLogPageOffset = 1024) :
    execute (some log) cmd = some ⟨.success, some (log.bytes 1024 (1024 * (m + 1)))⟩ ↔
      log.genCtr = 0 ∧ log.entries = [] := by
  obtain ⟨w, hat, hexec⟩ := execute_header_again log hlen hoffset
  have hbytes := log.bytes_later fits 0 (m + 1)
  rw [Nat.zero_add, Nat.mul_one, List.drop_zero] at hbytes
  rw [hexec, hbytes]
  by_cases hm : log.entries.length ≤ m
  · have htake : log.entries.take (m + 1) = log.entries.take m := by
      rw [List.take_of_length_le hm, List.take_of_length_le (by omega)]
    rw [htake, completed_fit hat fits, ← header_first_iff fits hm]
    simp
  · -- with the header there is no room for the last of the entries
    have hcount : (log.entries.take (m + 1)).length = m + 1 := by
      rw [List.length_take]
      omega
    obtain ⟨err, hover⟩ := writeEntries_overflow hat
      (fun e he => fits e (List.mem_of_mem_take he) : ∀ e ∈ log.entries.take (m + 1), e.Fits)
      (by omega)
    rw [hover]
    refine iff_of_false (by simp [completed]) ?_
    rintro ⟨-, hnil⟩
    simp [hnil] at hm

end Linear

/-- The reply is what the array holds exactly when it is not cut right behind the header, where the
server starts with the header again, unless the header is as empty as what follows it. -/
theorem execute_linear_iff (log : DiscoveryLog) (cmd : GetLogPageCommand)
    (fits : ∀ e ∈ log.entries, e.Fits)
    (hlength : 1024 ∣ cmd.getLogPageLen.toNat) (hmin : 1024 ≤ cmd.getLogPageLen.toNat)
    (hoffset : 1024 ∣ cmd.getLogPageOffset.toNat) :
    execute (some log) cmd = some ⟨.success,
        some (log.bytes cmd.getLogPageOffset.toNat cmd.getLogPageLen.toNat)⟩ ↔
      cmd.getLogPageOffset ≠ 1024 ∨ (log.genCtr = 0 ∧ log.entries = []) := by
  obtain ⟨n, hn⟩ := hlength
  obtain ⟨m, rfl⟩ : ∃ m, n = m + 1 := ⟨n - 1, by omega⟩
  obtain ⟨k, hk⟩ := hoffset
  have hpage : (1024 : UInt64).toNat = 1024 := rfl
  by_cases hsecond : cmd.getLogPageOffset = 1024
  · rw [hn, hsecond, hpage, execute_second_iff fits hn hsecond]
    simp
  refine iff_of_true ?_ (Or.inl hsecond)
  rw [hn, hk]
  cases k with
  | zero =>
    have hzero : cmd.getLogPageOffset = 0 := UInt64.toNat_inj.mp hk
    exact execute_at_zero fits hn hzero
  | succ j =>
    have hj : 0 < j := by
      rcases Nat.eq_zero_or_pos j with rfl | hj
      · exact absurd (UInt64.toNat_inj.mp (by omega)) hsecond
      · exact hj
    exact execute_behind fits hn hk hj

theorem execute_linear_iff_sample :
    execute (some TcpQueue.sampleLog) (newNvmeGetDiscoveryLogPageRequest 4096 2048) =
      some ⟨.success, some (TcpQueue.sampleLog.bytes 2048 4096)⟩ := by
  have hlen := getLogPageLen_new 4096 2048
  have hoffset := getLogPageOffset_new 4096 2048
  have hsize : (4096 : UInt32).toNat / 4 * 4 = 4096 := rfl
  have hstart : (2048 : UInt64).toNat = 2048 := rfl
  rw [hsize] at hlen
  have h := (execute_linear_iff TcpQueue.sampleLog (newNvmeGetDiscoveryLogPageRequest 4096 2048)
    TcpQueue.sampleLog_fits (by rw [hlen]; decide) (by rw [hlen]; decide)
    (by rw [hoffset, hstart]; decide)).mpr (Or.inl (by rw [hoffset]; decide))
  rwa [hlen, hoffset, hstart] at h

/-- The page right behind the header of the sample log. -/
theorem second_page_not_linear :
    ¬∀ (log : DiscoveryLog) (cmd : GetLogPageCommand), (∀ e ∈ log.entries, e.Fits) →
      1024 ∣ cmd.getLogPageLen.toNat → 1024 ≤ cmd.getLogPageLen.toNat →
      1024 ∣ cmd.getLogPageOffset.toNat →
      execute (some log) cmd = some ⟨.success,
        some (log.bytes cmd.getLogPageOffset.toNat cmd.getLogPageLen.toNat)⟩ := by
  intro h
  have hlen := getLogPageLen_new 4096 1024
  have hoffset := getLogPageOffset_new 4096 1024
  have hsize : (4096 : UInt32).toNat / 4 * 4 = 1024 * (3 + 1) := rfl
  have hstart : (1024 : UInt64).toNat = 1024 := rfl
  rw [hsize] at hlen
  have hpage := h TcpQueue.sampleLog (newNvmeGetDiscoveryLogPageRequest 4096 1024)
    TcpQueue.sampleLog_fits (by rw [hlen]; decide) (by rw [hlen]; decide)
    ⟨1, congrArg UInt64.toNat hoffset⟩
  rw [hlen, hoffset, hstart, execute_second_iff TcpQueue.sampleLog_fits hlen hoffset] at hpage
  exact absurd hpage.1 (by decide)

end DiscoveryClient
