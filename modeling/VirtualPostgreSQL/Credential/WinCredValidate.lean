import VirtualPostgreSQL.Credential.WinCredFormat

/-!
# Credential/WinCredValidate — the pass that checks a credential blob

A round accepts an entry of a field that was not seen (`wincredValidateEntry_spec`), the loop
entries of different fields (`wincredValidateLoop_spec`), and the pass the blobs of the format
(`wincredValidateBlob_spec`).  Behind entries the loop carries the mask of their fields, where they
end, and what their values take: `wincredWalk`.
-/

namespace Vps

open Machinery

/-! ## Behind entries -/

/-- A walk goes past an entry. -/
def WinCredWalk.past (walk : WinCredWalk) (entry : WinCredEntry) : WinCredWalk :=
  ⟨walk.seen ||| entry.member.field, walk.cursor + entry.bytes.length,
    walk.total + entry.text.length⟩

/-- Where the first pass is behind entries. -/
def wincredWalk (entries : List WinCredEntry) : WinCredWalk :=
  entries.foldl WinCredWalk.past ⟨0, wincredFormatHeaderSize, 0⟩

section Walk

variable (done : List WinCredEntry) (entry : WinCredEntry)

theorem wincredWalk_concat : wincredWalk (done ++ [entry]) = (wincredWalk done).past entry := by
  rw [wincredWalk, List.foldl_append]
  rfl

theorem wincredWalk_seen : IsMaskOf (wincredWalk done).seen (done.map (·.member.shift)) := by
  induction done using List.reverseRecOn with
  | nil => exact isMaskOf_zero
  | append_singleton done entry ih =>
    rw [wincredWalk_concat, List.map_append]
    exact ih.or (isFlag_field entry.member)

theorem wincredWalk_cursor : (wincredWalk done).cursor =
    wincredFormatHeaderSize + (done.flatMap WinCredEntry.bytes).length := by
  induction done using List.reverseRecOn with
  | nil => rfl
  | append_singleton done entry ih =>
    rw [wincredWalk_concat, WinCredWalk.past, ih, List.flatMap_append, List.length_append,
      List.flatMap_singleton, Nat.add_assoc]

theorem wincredWalk_total : (wincredWalk done).total = (done.flatMap WinCredEntry.text).length := by
  induction done using List.reverseRecOn with
  | nil => rfl
  | append_singleton done entry ih =>
    rw [wincredWalk_concat, WinCredWalk.past, ih, List.flatMap_append, List.length_append,
      List.flatMap_singleton]

/-- The values take less than the entries. -/
theorem wincredWalk_total_le : (wincredWalk done).total ≤ (wincredWalk done).cursor := by
  induction done using List.reverseRecOn with
  | nil => exact Nat.zero_le _
  | append_singleton done entry ih =>
    rw [wincredWalk_concat]
    simp only [WinCredWalk.past, WinCredEntry.length_bytes, WinCredEntry.length_text,
      wincredFormatEntrySize]
    omega

/-- The bit of an entry was not seen, if its field was not. -/
theorem wincredWalk_seen_and : (wincredWalk done).seen &&& entry.member.field = 0 ↔
    entry.member ∉ done.map (·.member) := by
  rw [(wincredWalk_seen done).and_eq_zero_iff (isFlag_field entry.member), shift_mem_iff]

end Walk

/-! ## The loop -/

theorem sizeAdd_of_le {left right : ℕ} (h : left + right ≤ sizeMax) :
    sizeAdd left right = some (left + right) := by
  rw [sizeAdd, if_neg (by omega)]

section Validate

variable {blob text tail : List UInt8} {walk : WinCredWalk} {bit length reserved : ℕ}

/-- A round by the words of the entry. -/
theorem wincredValidateEntry_words
    (h : Stands blob walk.cursor
      (leBytes 8 bit ++ (leBytes 4 length ++ (leBytes 4 reserved ++ tail))))
    (hlength : length < 2 ^ 32) (hreserved : reserved < 2 ^ 32)
    (htotal : walk.total + credentialValueMaxLength < sizeMax) :
    ∃ accepted : Bool, wincredValidateEntry blob walk = .ok (if accepted then
        some ⟨walk.seen ||| bit.toUInt64, walk.cursor + (wincredFormatEntrySize + length),
          walk.total + (length + 1)⟩ else none) ∧
      (accepted ↔ reserved = 0 ∧ (wincredFindField bit.toUInt64).isSome ∧
        walk.seen &&& bit.toUInt64 = 0 ∧ length ≤ credentialValueMaxLength ∧ length ≤ tail.length ∧
        IsUtf8 (tail.take length) ∧ ∀ byte ∈ tail.take length, ¬isControl byte) := by
  obtain ⟨hreadBit, hreadLength, hreadReserved, hvalue⟩ := wincred_reads h
  have hcursor := h.length
  have hremaining : blob.length - walk.cursor = wincredFormatEntrySize + tail.length := by
    rw [h.remaining]
    simp only [List.length_append, length_leBytes, wincredFormatEntrySize]
    omega
  have hlengthNat : length.toUInt32.toNat = length := UInt32.toNat_ofNat_of_lt' hlength
  have hzero : reserved.toUInt32 = 0 ↔ reserved = 0 := by
    rw [← UInt32.toNat_inj, Nat.toUInt32_eq, UInt32.toNat_ofNat_of_lt' hreserved, UInt32.toNat_zero]
  rw [wincredValidateEntry, if_neg (by omega)]
  simp only [hreadBit, hreadLength, hreadReserved, ok_bind, hlengthNat, ne_eq, hzero]
  by_cases hword : reserved = 0
  swap
  · rw [if_pos hword]
    exact ⟨false, rfl, iff_of_false Bool.false_ne_true fun h => hword h.1⟩
  rw [if_neg (not_not.mpr hword)]
  by_cases hfound : (wincredFindField bit.toUInt64).isSome
  swap
  · rw [if_pos (by simpa using hfound)]
    exact ⟨false, rfl, iff_of_false Bool.false_ne_true fun h => hfound h.2.1⟩
  rw [if_neg (by simpa [Option.ne_none_iff_isSome] using hfound)]
  by_cases hseen : walk.seen &&& bit.toUInt64 = 0
  swap
  · rw [if_pos hseen]
    exact ⟨false, rfl, iff_of_false Bool.false_ne_true fun h => hseen h.2.2.1⟩
  rw [if_neg (not_not.mpr hseen)]
  by_cases hmax : length ≤ credentialValueMaxLength
  swap
  · rw [if_pos (Nat.not_le.mp hmax)]
    exact ⟨false, rfl, iff_of_false Bool.false_ne_true fun h => hmax h.2.2.2.1⟩
  have hentry : wincredFormatEntrySize + length ≤ sizeMax := by
    simp only [wincredFormatEntrySize, credentialValueMaxLength, sizeMax] at hmax ⊢
    omega
  rw [if_neg (Nat.not_lt.mpr hmax), sizeAdd_of_le hentry]
  dsimp only
  by_cases htail : length ≤ tail.length
  swap
  · rw [if_pos (by omega)]
    exact ⟨false, rfl, iff_of_false Bool.false_ne_true fun h => htail h.2.2.2.2.1⟩
  obtain ⟨accepted, hvalid, haccepted⟩ := wincredUtf8Valid_spec hvalue htail
  rw [if_neg (by omega), hvalid, ok_bind, sizeAdd_of_le (by omega)]
  refine ⟨accepted, by cases accepted <;> rfl, haccepted.trans ?_⟩
  exact ⟨fun h => ⟨hword, hfound, hseen, hmax, htail, h⟩, fun h => h.2.2.2.2.2⟩

/-- **A round accepts an entry** of a field that was not seen, and reads nothing outside of the
blob. -/
theorem wincredValidateEntry_spec (h : Stands blob walk.cursor text)
    (htotal : walk.total + credentialValueMaxLength < sizeMax) :
    ∃ result, wincredValidateEntry blob walk = .ok result ∧ ∀ walk', result = some walk' ↔
      ∃ entry rest, WinCredEntry.Valid entry ∧ text = entry.bytes ++ rest ∧
        walk.seen &&& entry.member.field = 0 ∧ walk' = walk.past entry := by
  by_cases hsize : wincredFormatEntrySize ≤ text.length
  · obtain ⟨bit, hbit, length, hlength, reserved, hreserved, tail, rfl⟩ :=
      @exists_three_leBytes text 8 4 4 hsize
    obtain ⟨accepted, hround, haccepted⟩ := wincredValidateEntry_words h hlength hreserved htotal
    refine ⟨_, hround, fun walk' => ?_⟩
    have hbitNat : bit.toUInt64.toNat = bit := UInt64.toNat_ofNat_of_lt' hbit
    constructor
    · intro hsome
      obtain ⟨haccept, hwalk⟩ := Option.ite_none_right_eq_some.mp hsome
      obtain rfl := Option.some.inj hwalk
      obtain ⟨hzero, hfound, hseen, hmax, htail, hutf8, hplain⟩ := haccepted.mp haccept
      obtain ⟨descriptor, hfind⟩ := Option.isSome_iff_exists.mp hfound
      have hfield := eq_field_of_wincredFindField hfind
      have hcount : (tail.take length).length = length := List.length_take_of_le htail
      have hentry : WinCredEntry.Valid ⟨descriptor.configOffset, tail.take length⟩ :=
        ⟨by rwa [hcount], hutf8, hplain⟩
      refine ⟨_, tail.drop length, hentry, ?_, by rwa [← hfield], ?_⟩
      · refine (WinCredEntry.bytes_append_eq_iff hentry hbit hlength hreserved).mpr
          ⟨?_, hcount, hzero, (List.take_append_drop _ _).symm⟩
        rw [← hfield, hbitNat]
      · rw [WinCredWalk.past, WinCredEntry.length_bytes, WinCredEntry.length_text, hcount, hfield]
    · rintro ⟨entry, rest, hentry, htext, hseen, rfl⟩
      obtain ⟨hfield, hcount, hzero, rfl⟩ :=
        (WinCredEntry.bytes_append_eq_iff hentry hbit hlength hreserved).mp htext
      have hfield' : bit.toUInt64 = entry.member.field :=
        UInt64.toNat_inj.mp (hbitNat.trans hfield.symm)
      have haccept : accepted = true := by
        refine haccepted.mpr ⟨hzero, ?_, by rwa [hfield'], hcount ▸ hentry.length, ?_, ?_⟩
        · rw [hfield', wincredFindField_field]
          rfl
        · rw [List.length_append, hcount]
          exact Nat.le_add_right _ _
        · rw [List.take_left' hcount]
          exact ⟨hentry.utf8, hentry.plain⟩
      rw [if_pos haccept, WinCredWalk.past, WinCredEntry.length_bytes,
        WinCredEntry.length_text, hcount, hfield']
  · refine ⟨none, ?_, fun walk' => iff_of_false nofun ?_⟩
    · have hremaining := h.remaining
      rw [wincredValidateEntry, if_pos (Or.inr (by omega))]
      rfl
    · rintro ⟨entry, rest, -, htext, -⟩
      have hlength := congrArg List.length htext
      rw [List.length_append, entry.length_bytes] at hlength
      omega

/-- **The loop accepts entries of different fields**, and goes past them. -/
theorem wincredValidateLoop_spec (hblob : blob.length ≤ wincredBlobMaxLength) {rounds : ℕ}
    {done : List WinCredEntry} (h : Stands blob (wincredWalk done).cursor text)
    (hdone : (done.map (·.member)).Nodup) :
    ∃ result, wincredValidateLoop blob rounds (wincredWalk done) = .ok result ∧
      ∀ walk', result = some walk' ↔ ∃ entries rest, entries.length = rounds ∧
        (∀ entry ∈ entries, WinCredEntry.Valid entry) ∧
        ((done ++ entries).map (·.member)).Nodup ∧
        text = entries.flatMap WinCredEntry.bytes ++ rest ∧
          walk' = wincredWalk (done ++ entries) := by
  induction rounds generalizing text done with
  | zero =>
    refine ⟨some (wincredWalk done), rfl, fun walk' => ?_⟩
    constructor
    · rintro ⟨⟩
      exact ⟨[], text, rfl, nofun, by rwa [List.append_nil], rfl, by rw [List.append_nil]⟩
    · rintro ⟨entries, rest, hlength, -, -, -, rfl⟩
      rw [List.length_eq_zero_iff.mp hlength, List.append_nil]
  | succ rounds ih =>
    have htotal : (wincredWalk done).total + credentialValueMaxLength < sizeMax := by
      have hcursor := h.length
      have hle := wincredWalk_total_le done
      simp only [wincredBlobMaxLength, credentialValueMaxLength, sizeMax] at hblob ⊢
      omega
    obtain ⟨result, hround, hresult⟩ := wincredValidateEntry_spec h htotal
    rw [wincredValidateLoop, hround, ok_bind]
    -- the first of more entries is accepted by the round
    have hfirst {entry : WinCredEntry} {entries : List WinCredEntry} {rest : List UInt8}
        (hvalid : entry.Valid) (hnodup : ((done ++ entry :: entries).map (·.member)).Nodup)
        (htext : text = (entry :: entries).flatMap WinCredEntry.bytes ++ rest) :
        result = some ((wincredWalk done).past entry) := by
      refine (hresult _).mpr
        ⟨entry, _, hvalid, by rw [htext, List.flatMap_cons, List.append_assoc], ?_, rfl⟩
      rw [wincredWalk_seen_and]
      rw [List.map_append, List.map_cons, List.nodup_append] at hnodup
      exact fun hmem => hnodup.2.2 _ hmem _ List.mem_cons_self rfl
    cases result with
    | none =>
      refine ⟨none, rfl, fun walk' => iff_of_false nofun ?_⟩
      rintro ⟨entries, rest, hlength, hvalid, hnodup, htext, -⟩
      cases entries with
      | nil => cases hlength
      | cons entry entries => cases hfirst (hvalid entry List.mem_cons_self) hnodup htext
    | some walk =>
      obtain ⟨entry, rest, hentry, rfl, hseen, rfl⟩ := (hresult walk).mp rfl
      have hnodup : ((done ++ [entry]).map (·.member)).Nodup := by
        rw [List.map_append, List.nodup_append]
        refine ⟨hdone, List.nodup_singleton _, fun a ha b hb hab => ?_⟩
        obtain rfl : b = entry.member := List.mem_singleton.mp hb
        exact (wincredWalk_seen_and done entry).mp hseen (hab ▸ ha)
      have hnext : Stands blob (wincredWalk (done ++ [entry])).cursor rest := by
        rw [wincredWalk_concat]
        exact h.behind rfl
      obtain ⟨later, hloop, hlater⟩ := ih hnext hnodup
      dsimp only
      rw [← wincredWalk_concat]
      refine ⟨later, hloop, fun walk' => (hlater walk').trans ?_⟩
      constructor
      · rintro ⟨entries, tail, hlength, hvalid, hnodup, rfl, rfl⟩
        refine ⟨entry :: entries, tail, congrArg _ hlength, ?_, ?_, ?_, ?_⟩
        · exact List.forall_mem_cons.mpr ⟨hentry, hvalid⟩
        · rwa [List.append_assoc] at hnodup
        · rw [List.flatMap_cons, List.append_assoc]
        · rw [List.append_assoc, List.singleton_append]
      · rintro ⟨entries, tail, hlength, hvalid, hnodup, htext, rfl⟩
        cases entries with
        | nil => cases hlength
        | cons first entries =>
          rw [List.flatMap_cons, List.append_assoc] at htext
          obtain ⟨rfl, rfl⟩ :=
            WinCredEntry.bytes_append_inj hentry (hvalid first List.mem_cons_self) htext
          refine ⟨entries, tail, Nat.succ.inj hlength,
            fun e he => hvalid e (List.mem_cons_of_mem _ he), ?_, rfl, ?_⟩
          · rwa [List.append_assoc]
          · rw [List.append_assoc, List.singleton_append]

end Validate

/-! ## The pass -/

/-- **The pass accepts the blobs of the format**, with their fields and the size of the values, and
reads nothing outside of the blob. -/
theorem wincredValidateBlob_spec (blob : List UInt8) :
    ∃ result, wincredValidateBlob (some blob) = .ok result ∧ ∀ fields size,
      result = some (fields, size) ↔ ∃ entries, IsWinCredBlob blob entries ∧
        fields = (wincredWalk entries).seen ∧
          size = (entries.flatMap WinCredEntry.text).length := by
  have hrefused (hno : ∀ entries, ¬IsWinCredBlob blob entries) :
      ∃ result, (.ok none : Buffered (Option (UInt64 × ℕ))) = .ok result ∧ ∀ fields size,
        result = some (fields, size) ↔ ∃ entries, IsWinCredBlob blob entries ∧
          fields = (wincredWalk entries).seen ∧ size = (entries.flatMap WinCredEntry.text).length :=
    ⟨none, rfl, fun fields size => iff_of_false nofun fun ⟨entries, hblob, _⟩ => hno entries hblob⟩
  rw [wincredValidateBlob]
  by_cases hshort : blob.length < wincredFormatHeaderSize ∨ blob.length > wincredBlobMaxLength
  · rw [if_pos hshort]
    refine hrefused fun entries hblob => ?_
    have hlength := congrArg List.length hblob.bytes
    rw [List.length_append, length_wincredHeader] at hlength
    have hsize := hblob.size
    omega
  rw [if_neg hshort]
  obtain ⟨hheader, hsize⟩ := not_or.mp hshort
  have hsize : blob.length ≤ wincredBlobMaxLength := Nat.not_lt.mp hsize
  obtain ⟨magic, hmagic, version, hversion, count, hcount, tail, hblob⟩ :=
    @exists_three_leBytes blob 4 2 2 (Nat.not_lt.mp hheader)
  obtain ⟨hreadMagic, hreadVersion, hreadCount, htail⟩ := wincred_header_reads hblob
  have hwords {entries : List WinCredEntry} (h : IsWinCredBlob blob entries) :
      magic = wincredFormatMagic.toNat ∧ version = wincredFormatVersion.toNat ∧
        count = entries.length ∧ tail = entries.flatMap WinCredEntry.bytes :=
    (wincredHeader_append_eq_iff hmagic hversion hcount (h.count.trans_lt (by decide))).mp
      (hblob.symm.trans h.bytes)
  simp only [hreadMagic, hreadVersion, hreadCount, ok_bind]
  have hcountNat : count.toUInt16.toNat = count := UInt16.toNat_ofNat_of_lt' hcount
  by_cases hmagicWord : magic.toUInt32 = wincredFormatMagic
  swap
  · rw [if_pos hmagicWord]
    exact hrefused fun entries h => hmagicWord ((hwords h).1 ▸ UInt32.ofNat_toNat)
  rw [if_neg (not_not.mpr hmagicWord)]
  by_cases hversionWord : version.toUInt16 = wincredFormatVersion
  swap
  · rw [if_pos hversionWord]
    exact hrefused fun entries h => hversionWord ((hwords h).2.1 ▸ UInt16.ofNat_toNat)
  rw [if_neg (not_not.mpr hversionWord), hcountNat]
  by_cases hfields : count.toUInt16 = 0 ∨ count > wincredFields.length
  · rw [if_pos hfields]
    refine hrefused fun entries h => ?_
    have hentries := (hwords h).2.2.1
    have hpos := h.pos
    have hmax := h.count
    rw [← UInt16.toNat_inj, hcountNat, UInt16.toNat_zero] at hfields
    omega
  rw [if_neg hfields]
  rw [← UInt16.toNat_inj, hcountNat, UInt16.toNat_zero] at hfields
  obtain ⟨result, hloop, hresult⟩ :=
    @wincredValidateLoop_spec blob tail hsize count [] htail List.nodup_nil
  have hstart : wincredWalk [] = ⟨0, wincredFormatHeaderSize, 0⟩ := rfl
  rw [← hstart, hloop, ok_bind]
  -- the loop goes past the entries of a blob of the format
  have hpast {entries : List WinCredEntry} (h : IsWinCredBlob blob entries) :
      result = some (wincredWalk entries) := by
    obtain ⟨-, -, hentries, hbytes⟩ := hwords h
    exact (hresult _).mpr
      ⟨entries, [], hentries.symm, h.valid, h.distinct, by rw [hbytes, List.append_nil], rfl⟩
  cases result with
  | none => exact hrefused fun entries h => nomatch hpast h
  | some walk =>
    obtain ⟨entries, rest, rfl, hvalid, hnodup, rfl, rfl⟩ := (hresult walk).mp rfl
    rw [List.nil_append] at hnodup hpast ⊢
    have hcursor := wincredWalk_cursor entries
    have hlength := htail.length
    rw [List.length_append] at hlength
    dsimp only
    by_cases hend : (wincredWalk entries).cursor = blob.length
    · obtain rfl : rest = [] := List.length_eq_zero_iff.mp (by omega)
      rw [if_neg (not_not.mpr hend)]
      refine ⟨_, rfl, fun fields size => ?_⟩
      constructor
      · rintro ⟨⟩
        refine ⟨entries, ⟨hsize, by omega, by omega, hvalid, hnodup, ?_⟩, rfl,
          wincredWalk_total entries⟩
        rw [hblob]
        refine (wincredHeader_append_eq_iff hmagic hversion hcount hcount).mpr
          ⟨?_, ?_, rfl, List.append_nil _⟩
        · rw [← hmagicWord, Nat.toUInt32_eq, UInt32.toNat_ofNat_of_lt' hmagic]
        · rw [← hversionWord, Nat.toUInt16_eq, UInt16.toNat_ofNat_of_lt' hversion]
      · rintro ⟨others, hothers, rfl, rfl⟩
        rw [Option.some.inj (hpast hothers), wincredWalk_total]
    · rw [if_pos hend]
      refine hrefused fun others hothers => hend ?_
      rw [Option.some.inj (hpast hothers), wincredWalk_cursor, hothers.bytes, List.length_append,
        length_wincredHeader]

end Vps
