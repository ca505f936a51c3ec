import RecordBuffer.Proofs.Reported

/-!
# What the encoding of records is

A string of bytes is the encoding of at most one list of payloads, which is found
by splitting record after record off its front. The bytes of a buffer are such an
encoding exactly if a walk over its records ends with one that stops at the
cursor, and the walk yields the same list.
-/

namespace RecordBuffer

namespace Record

variable {data payload raw rest : Bytes} {payloads others : List Bytes}

theorem length_lt_of_split? (hsplit : split? data = some (payload, rest)) :
    payload.length < Limits.payloadBound := by
  match data with
  | [] | [_] | [_, _] | [_, _, _] => cases hsplit
  | a :: b :: c :: d :: tail =>
      simp only [split?] at hsplit
      split at hsplit
      next hwhole =>
        cases hsplit
        rw [hwhole]
        exact ofDigits_lt a b c d
      next => cases hsplit

theorem payload?_of_split? (hsplit : split? data = some (payload, rest)) :
    payload? data = some payload := by
  rw [payload?, hsplit, Option.map_some]

theorem raw?_of_split? (hsplit : split? data = some (payload, rest)) :
    raw? data = some (encode payload) := by
  rw [raw?, payload?_of_split? hsplit, Option.map_some, eq_encode_append_of_split? hsplit,
    List.take_left' (length_encode payload)]

/-- A whole record at the front is there to be split off. -/
theorem exists_split?_of_raw? (hraw : raw? data = some raw) :
    ∃ payload rest, split? data = some (payload, rest) ∧ raw = encode payload := by
  cases hsplit : split? data with
  | none => simp [raw?, payload?, hsplit] at hraw
  | some parts =>
      obtain ⟨payload, rest⟩ := parts
      cases (raw?_of_split? hsplit).symm.trans hraw
      exact ⟨payload, rest, rfl, rfl⟩

/-- Split record after record off the front of a string of bytes until it is used up. -/
def decodeAll (data : Bytes) : Option (List Bytes) :=
  if data = [] then some []
  else
    match _ : raw? data, payload? data with
    | some raw, some payload => (decodeAll (data.drop raw.length)).map (payload :: ·)
    | _, _ => none
  termination_by data.length
  decreasing_by
    obtain ⟨payload, rest, hsplit, rfl⟩ := exists_split?_of_raw? ‹raw? data = some _›
    rw [eq_encode_append_of_split? hsplit, List.drop_left, List.length_append, length_encode]
    exact Nat.lt_add_of_pos_left (size_pos _)

@[simp]
theorem decodeAll_nil : decodeAll [] = some [] := by
  rw [decodeAll, if_pos rfl]

theorem decodeAll_of_split? (hsplit : split? data = some (payload, rest)) :
    decodeAll data = (decodeAll rest).map (payload :: ·) := by
  have hdata := eq_encode_append_of_split? hsplit
  have hnonempty : data ≠ [] := by
    rintro rfl
    cases hsplit
  have hbehind : data.drop (encode payload).length = rest := by rw [hdata, List.drop_left]
  rw [decodeAll, if_neg hnonempty]
  split
  next raw other hraw hpayload =>
    cases (raw?_of_split? hsplit).symm.trans hraw
    cases (payload?_of_split? hsplit).symm.trans hpayload
    rw [hbehind]
  next hneither =>
    exact absurd (payload?_of_split? hsplit) (hneither _ _ (raw?_of_split? hsplit))

/-- Every encoding is decoded to what was encoded. -/
theorem decodeAll_encodeAll (hshort : Short payloads) :
    decodeAll (encodeAll payloads) = some payloads := by
  induction payloads with
  | nil => exact decodeAll_nil
  | cons payload rest ih =>
      obtain ⟨hpayload, hrest⟩ := short_cons.mp hshort
      rw [encodeAll_cons, decodeAll_of_split? (split?_encode_append hpayload _), ih hrest,
        Option.map_some]

/-- Nothing but encodings is decoded. -/
theorem encodeAll_of_decodeAll (hdecode : decodeAll data = some payloads) :
    Short payloads ∧ encodeAll payloads = data := by
  fun_induction decodeAll data generalizing payloads with
  | case1 =>
      cases hdecode
      exact ⟨short_nil, rfl⟩
  | case2 data hdata raw payload hraw hpayload ih =>
      obtain ⟨first, rest, hsplit, rfl⟩ := exists_split?_of_raw? hraw
      cases (payload?_of_split? hsplit).symm.trans hpayload
      obtain ⟨decoded, hdecoded, rfl⟩ := Option.map_eq_some_iff.mp hdecode
      obtain ⟨hshort, hencoded⟩ := ih hdecoded
      have hfirst := length_lt_of_split? hsplit
      obtain rfl := eq_encode_append_of_split? hsplit
      refine ⟨short_cons.mpr ⟨hfirst, hshort⟩, ?_⟩
      rw [encodeAll_cons, hencoded, List.drop_left]
  | case3 => cases hdecode

theorem decodeAll_eq_some :
    decodeAll data = some payloads ↔ Short payloads ∧ encodeAll payloads = data := by
  constructor
  · exact encodeAll_of_decodeAll
  · rintro ⟨hshort, rfl⟩
    exact decodeAll_encodeAll hshort

/-- No two lists of payloads have one encoding. -/
theorem encodeAll_inj (hshort : Short payloads) (hothers : Short others)
    (heq : encodeAll others = encodeAll payloads) : others = payloads := by
  have hdecode := decodeAll_encodeAll hothers
  rw [heq, decodeAll_encodeAll hshort] at hdecode
  exact (Option.some.inj hdecode).symm

end Record

namespace Buffer

variable {buffer : Buffer} {payloads : List Bytes}

/-- A walk over all records is not refused and leaves nothing over: the last record ends at the
cursor, or there are no bytes. -/
def Covered (buffer : Buffer) : Prop :=
  ∃ trail, buffer.trail 1 buffer.cursor = .ok trail ∧
    (buffer.cursor = 1 ∨ ∃ last, trail.visits.getLast? = some last ∧
      last.offset + Record.size last.payload.length = buffer.cursor)

/-- Bytes that are an encoding are covered by the records that were encoded. -/
theorem covered_of_encodeAll (hcursor : 1 ≤ buffer.cursor)
    (hcapacity : buffer.cursor ≤ buffer.capacity) (hshort : Record.Short payloads)
    (hbytes : Record.encodeAll payloads = buffer.bytes) :
    buffer.Covered ∧ buffer.records = .ok payloads := by
  obtain ⟨hpacked, hextent⟩ := packed_of_bytes hcursor hshort hbytes
  obtain ⟨stop, htrail⟩ := exists_trail_of_packed (Nat.le_refl 1) hpacked hextent hcapacity
  refine ⟨⟨_, htrail, ?_⟩, ?_⟩
  · cases hlast : (visits 1 payloads).getLast? with
    | some last => exact .inr ⟨last, rfl, (stop_of_getLast?_visits hlast).trans hextent.symm⟩
    | none =>
        cases payloads with
        | nil => exact .inl hextent
        | cons payload rest => simp [visits] at hlast
  · refine bind_eq_ok.mpr ⟨_, htrail, ?_⟩
    exact congrArg Except.ok (map_payload_visits 1 payloads)

/-- Where the last record ends at the cursor, no header in front of it is cut and nothing behind it
is left. -/
theorem encodeAll_of_covered (hcovered : buffer.Covered) :
    ∃ payloads, Record.Short payloads ∧ Record.encodeAll payloads = buffer.bytes := by
  obtain ⟨⟨met, stop⟩, htrail, hend⟩ := hcovered
  obtain ⟨payloads, rfl, hreports, hreach⟩ :=
    trail_reports (Nat.le_refl 1) (Nat.le_refl _) htrail
  have hextent : buffer.cursor = 1 + Record.extent payloads := by
    rcases hend with hnone | ⟨last, hlast, hends⟩
    · cases payloads with
      | nil => exact hnone
      | cons payload rest =>
          have hbelow := (hreports _ List.mem_cons_self).below
          simp only at hbelow
          omega
    · rw [← hends, stop_of_getLast?_visits hlast]
  have hpacked : buffer.memory.Packed 1 payloads := by
    refine Memory.packed_of_visits fun visit hvisit => ?_
    have hstop := le_of_mem_visits hvisit
    rw [Record.size] at hstop
    obtain ⟨hshort, hholds, -⟩ := (hreports visit hvisit).whole (by omega)
    exact ⟨hshort, hholds⟩
  refine ⟨payloads, hpacked.short, ?_⟩
  rw [Buffer.bytes, hextent, Nat.add_sub_cancel_left, ← Record.length_encodeAll]
  exact hpacked.holds.symm

/-- The bytes of a buffer are an encoding of records exactly if a walk over its records covers them,
and exactly if records can be split off them until they are used up. There is one list of payloads
then that has these bytes for its encoding, and both the walk and the splitting yield it. -/
theorem bytes_decoded (hcursor : 1 ≤ buffer.cursor) (hcapacity : buffer.cursor ≤ buffer.capacity) :
    ((∃ payloads, Record.Short payloads ∧ Record.encodeAll payloads = buffer.bytes) ↔
      buffer.Covered) ∧
    ((Record.decodeAll buffer.bytes).isSome ↔ buffer.Covered) ∧
    (buffer.Covered → ∃ payloads, buffer.records = .ok payloads ∧ Record.Short payloads ∧
      Record.encodeAll payloads = buffer.bytes ∧
      Record.decodeAll buffer.bytes = some payloads ∧
      ∀ others, Record.Short others → Record.encodeAll others = buffer.bytes →
        others = payloads) := by
  have hencoded : (∃ payloads, Record.Short payloads ∧ Record.encodeAll payloads = buffer.bytes) ↔
      buffer.Covered := by
    constructor
    · rintro ⟨payloads, hshort, hbytes⟩
      exact (covered_of_encodeAll hcursor hcapacity hshort hbytes).1
    · exact encodeAll_of_covered
  refine ⟨hencoded, ?_, fun hcovered => ?_⟩
  · rw [← hencoded, Option.isSome_iff_exists]
    simp only [Record.decodeAll_eq_some]
  · obtain ⟨payloads, hshort, hbytes⟩ := hencoded.mpr hcovered
    obtain ⟨-, hrecords⟩ := covered_of_encodeAll hcursor hcapacity hshort hbytes
    refine ⟨payloads, hrecords, hshort, hbytes, Record.decodeAll_eq_some.mpr ⟨hshort, hbytes⟩, ?_⟩
    exact fun others hothers hsame => Record.encodeAll_inj hshort hothers (hsame.trans hbytes.symm)

/-- Ten bytes that were appended at once are two records, the second of which is empty. -/
theorem bytes_decoded_of_appended :
    ∃ buffer after count, Buffer.new 64 = .ok buffer ∧
      buffer.perform (.append [0, 0, 0, 2, 7, 8, 0, 0, 0, 0]) = .ok (after, .ok (.count count)) ∧
      after.Covered ∧ after.records = .ok [[7, 8], []] ∧
      Record.decodeAll after.bytes = some [[7, 8], []] := by
  let buffer : Buffer := ⟨.heap, .blank, 64, 1, 64, Limits.maxSize⟩
  let after : Buffer := ⟨.heap, Memory.blank.write 1 [0, 0, 0, 2, 7, 8, 0, 0, 0, 0], 64, 11, 64,
    Limits.maxSize⟩
  have hperform : buffer.perform (.append [0, 0, 0, 2, 7, 8, 0, 0, 0, 0]) =
      .ok (after, .ok (.count 10)) := rfl
  have hshort : Record.Short [[7, 8], []] := by unfold Record.Short; decide
  have hbytes : Record.encodeAll [[7, 8], []] = after.bytes :=
    (Memory.slice_write .blank 1 [0, 0, 0, 2, 7, 8, 0, 0, 0, 0]).symm
  obtain ⟨hencoded, -, hdecoded⟩ :=
    @bytes_decoded after (show 1 ≤ 11 by decide) (show 11 ≤ 64 by decide)
  have hcovered := hencoded.mp ⟨_, hshort, hbytes⟩
  obtain ⟨payloads, hrecords, -, -, hdecode, honly⟩ := hdecoded hcovered
  obtain rfl := honly _ hshort hbytes
  exact ⟨buffer, after, 10, rfl, hperform, hcovered, hrecords, hdecode⟩

end Buffer

end RecordBuffer
