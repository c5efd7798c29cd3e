import VirtualPostgreSQL.Credential.WinCredValidate
import VirtualPostgreSQL.Machinery.Layout

/-!
# Credential/WinCredDecode — what is decoded of a credential blob

The second pass checks nothing.  Over the entries of a blob it reads what the first one has read,
and puts the values one after the other into a buffer that is as long as the first one has added up
(`wincredCopyLoop_eq`).  `wincred_blob_format` puts the passes together.
-/

namespace Vps

open Machinery

/-- **What an owner holds of entries**: their fields are present, their values stand where the
members point, with a NUL behind, no other member points anywhere, and every byte belongs to one
entry. -/
structure WinCredLeaseOwner.Holds (owner : WinCredLeaseOwner)
    (entries : List WinCredEntry) : Prop where
  present : IsMaskOf owner.config.presentFields (entries.map (·.member.shift))
  named : ∀ entry ∈ entries, ∃ offset, owner.config.members entry.member = some offset ∧
    slice owner.values offset (entry.value.length + 1) = entry.value ++ [0]
  others : ∀ member ∉ entries.map (·.member), owner.config.members member = none
  tiled : ∀ i < owner.values.length, ∃! entry, entry ∈ entries ∧
    Covers (fun entry : WinCredEntry => owner.config.members entry.member)
      (fun entry => entry.value.length + 1) entry i

/-! ## The second pass -/

section Copy

variable {blob before : List UInt8} {copy : WinCredCopy}

/-- A round reads the entry, writes its value behind those before it, and notes where. -/
theorem wincredCopyEntry_eq {entry : WinCredEntry} {old after rest : List UInt8}
    (hentry : entry.Valid) (h : Stands blob copy.cursor (entry.bytes ++ rest))
    (hvalues : copy.values = before ++ (old ++ after)) (hbefore : before.length = copy.destination)
    (hold : old.length = entry.value.length + 1) :
    wincredCopyEntry blob copy = .ok ⟨copy.cursor + entry.bytes.length,
      copy.destination + (entry.value.length + 1), before ++ entry.text ++ after,
      Function.update copy.members entry.member (some copy.destination)⟩ := by
  have hlength : entry.value.length.toUInt32.toNat = entry.value.length :=
    UInt32.toNat_ofNat_of_lt' (hentry.length.trans_lt (by decide))
  have hfield : entry.member.field.toNat.toUInt64 = entry.member.field := UInt64.ofNat_toNat
  rw [WinCredEntry.bytes, List.append_assoc, List.append_assoc, List.append_assoc] at h
  obtain ⟨hreadBit, hreadLength, -, hvalue⟩ := wincred_reads h
  have hslice := hvalue.sliceAt (n := entry.value.length) (by simp)
  rw [List.take_left] at hslice
  -- the value, and then the NUL, take the place of what the allocator left
  have hroom : copy.values =
      before ++ (old.take entry.value.length ++ (old.drop entry.value.length ++ after)) := by
    rw [hvalues, ← List.append_assoc (old.take _), List.take_append_drop]
  have hcopied := @writeAt_append _ before (old.take entry.value.length)
    (old.drop entry.value.length ++ after) entry.value (List.length_take_of_le (by omega))
  have hended := @writeAt_append _ (before ++ entry.value) (old.drop entry.value.length) after [0]
    (by rw [List.length_drop, hold]; simp)
  rw [← hroom, hbefore] at hcopied
  rw [List.length_append, hbefore] at hended
  simp only [wincredCopyEntry, hreadBit, hreadLength, ok_bind, hlength, hslice, hcopied,
    hended, hfield, wincredFindField_field, WinCredEntry.length_bytes, WinCredEntry.text]
  rw [← List.append_assoc before]
  rfl

/-- **The values are laid one after the other**, and nothing else changes. -/
theorem wincredCopyLoop_eq {entries : List WinCredEntry} {space : List UInt8}
    (hvalid : ∀ entry ∈ entries, WinCredEntry.Valid entry)
    (hnodup : (entries.map (·.member)).Nodup)
    (h : Stands blob copy.cursor (entries.flatMap WinCredEntry.bytes))
    (hvalues : copy.values = before ++ space) (hbefore : before.length = copy.destination)
    (hspace : space.length = (entries.flatMap WinCredEntry.text).length) :
    ∃ last, wincredCopyLoop blob entries.length copy = .ok last ∧
      last.values = before ++ entries.flatMap WinCredEntry.text ∧
      Laid (fun entry : WinCredEntry => last.members entry.member)
        (fun entry => entry.value.length + 1)
        copy.destination entries ∧
      ∀ member ∉ entries.map (·.member), last.members member = copy.members member := by
  induction entries generalizing copy before space with
  | nil =>
    obtain rfl : space = [] := List.length_eq_zero_iff.mp hspace
    exact ⟨copy, rfl, hvalues, trivial, fun _ _ => rfl⟩
  | cons entry entries ih =>
    rw [List.flatMap_cons] at h hspace
    rw [List.length_append, entry.length_text] at hspace
    rw [List.map_cons, List.nodup_cons] at hnodup
    have hentry := hvalid entry List.mem_cons_self
    let next : WinCredCopy := ⟨copy.cursor + entry.bytes.length,
      copy.destination + (entry.value.length + 1),
      before ++ entry.text ++ space.drop (entry.value.length + 1),
      Function.update copy.members entry.member (some copy.destination)⟩
    have hround : wincredCopyEntry blob copy = .ok next :=
      wincredCopyEntry_eq hentry h (by rw [List.take_append_drop, hvalues]) hbefore
        (List.length_take_of_le (by omega))
    have hdestination : (before ++ entry.text).length = next.destination := by
      rw [List.length_append, hbefore, entry.length_text]
    have hstands : Stands blob next.cursor (entries.flatMap WinCredEntry.bytes) := h.behind rfl
    obtain ⟨last, hloop, hlast, hlaid, hothers⟩ := ih
      (fun e he => hvalid e (List.mem_cons_of_mem _ he)) hnodup.2 hstands rfl hdestination
      (by rw [List.length_drop]; omega)
    refine ⟨last, ?_, ?_, ⟨?_, hlaid⟩, fun member hmember => ?_⟩
    · rw [List.length_cons, wincredCopyLoop, hround, ok_bind, hloop]
    · rw [hlast, List.flatMap_cons, List.append_assoc]
    · exact (hothers entry.member hnodup.1).trans (Function.update_self ..)
    · rw [List.map_cons, List.mem_cons, not_or] at hmember
      exact (hothers member hmember.2).trans (Function.update_of_ne hmember.1 ..)

end Copy

/-! ## Both passes -/

section Decode

variable {memory : WinCredMemory} {blob : List UInt8} {entries : List WinCredEntry}

theorem WinCredEntry.length_flatMap_text (entries : List WinCredEntry) :
    (entries.flatMap WinCredEntry.text).length = (entries.map (·.value.length + 1)).sum := by
  simp only [List.length_flatMap, WinCredEntry.length_text]

/-- **A blob of the format is decoded**, and the owner holds its entries. -/
theorem wincredDecodeBlob_of_isWinCredBlob (hmemory : memory.Succeeds)
    (h : IsWinCredBlob blob entries) (fields : UInt64) :
    ∃ owner, wincredDecodeBlob memory (some blob) fields =
      .ok (some owner, owner.config.presentFields) ∧ owner.Holds entries := by
  obtain ⟨result, hvalidate, hresult⟩ := wincredValidateBlob_spec blob
  obtain rfl := (hresult _ _).mpr ⟨entries, h, rfl, rfl⟩
  obtain ⟨space, hblock, hspace⟩ := hmemory.block (entries.flatMap WinCredEntry.text).length
  have hbytes := h.bytes
  rw [wincredHeader, List.append_assoc, List.append_assoc] at hbytes
  obtain ⟨-, -, hcount, hstands⟩ := wincred_header_reads hbytes
  have hcountNat : entries.length.toUInt16.toNat = entries.length :=
    UInt16.toNat_ofNat_of_lt' (h.count.trans_lt (by decide))
  obtain ⟨last, hloop, hvalues, hlaid, hothers⟩ := @wincredCopyLoop_eq blob []
    ⟨wincredFormatHeaderSize, 0, space, fun _ => none⟩ entries space h.valid h.distinct
      hstands rfl rfl
    hspace
  rw [List.nil_append] at hvalues
  refine ⟨⟨last.values,
    ⟨credentialConfigSize, apiVersion, (wincredWalk entries).seen, last.members⟩⟩,
    ?_, wincredWalk_seen entries, fun entry hentry => ?_, hothers, fun i hi => ?_⟩
  · rw [wincredDecodeBlob, hvalidate, ok_bind]
    simp only [hmemory.owner, hmemory.sensitive, hblock, hcount, ok_bind, hcountNat, hloop]
    rfl
  · have hstart : ([] : List UInt8).length = 0 := rfl
    have hslice := hlaid.slice WinCredEntry.length_text hstart hentry
    rwa [List.nil_append, ← hvalues] at hslice
  · refine hlaid.existsUnique (Nat.zero_le i) ?_
    rwa [Nat.zero_add, ← WinCredEntry.length_flatMap_text, ← hvalues]

/-- **Any other blob is refused**, and the fields stay as they are. -/
theorem wincredDecodeBlob_of_not (h : ¬∃ entries, IsWinCredBlob blob entries) (fields : UInt64) :
    wincredDecodeBlob memory (some blob) fields = .ok (none, fields) := by
  obtain ⟨result, hvalidate, hresult⟩ := wincredValidateBlob_spec blob
  rw [wincredDecodeBlob, hvalidate, ok_bind]
  cases result with
  | none => rfl
  | some result =>
    obtain ⟨entries, hblob, -⟩ := (hresult result.1 result.2).mp rfl
    exact absurd ⟨entries, hblob⟩ h

end Decode

/-- **Exactly the blobs of the format are decoded**, by passes that read and write nothing outside
of their buffers; the owner holds the entries of the blob, and the fields are those that are
present. -/
theorem wincred_blob_format {memory : WinCredMemory} (hmemory : memory.Succeeds) (blob : List UInt8)
    (fields : UInt64) :
    ∃ owner present, wincredDecodeBlob memory (some blob) fields = .ok (owner, present) ∧
      (owner.isSome ↔ ∃ entries, IsWinCredBlob blob entries) ∧
      (owner = none → present = fields) ∧
      ∀ held entries, owner = some held → IsWinCredBlob blob entries →
        present = held.config.presentFields ∧ held.Holds entries := by
  by_cases h : ∃ entries, IsWinCredBlob blob entries
  · obtain ⟨entries, hentries⟩ := h
    obtain ⟨owner, hdecode, -⟩ := wincredDecodeBlob_of_isWinCredBlob hmemory hentries fields
    refine ⟨some owner, _, hdecode, iff_of_true rfl ⟨entries, hentries⟩, nofun, ?_⟩
    rintro held others ⟨⟩ hothers
    -- whichever entries the blob is read as, the owner is the same
    obtain ⟨owner', hdecode', hholds⟩ := wincredDecodeBlob_of_isWinCredBlob hmemory hothers fields
    rw [hdecode] at hdecode'
    cases hdecode'
    exact ⟨rfl, hholds⟩
  · exact ⟨none, fields, wincredDecodeBlob_of_not h fields, iff_of_false nofun h,
      fun _ => rfl, nofun⟩

/-- A password, and a user that is empty. -/
theorem wincred_blob_format_password :
    let entries : List WinCredEntry := [⟨.password, [112, 119]⟩, ⟨.user, []⟩]
    ∃ held present, wincredDecodeBlob ⟨true, true, fun size => some (List.replicate size 255)⟩
        (some (wincredHeader 2 ++ entries.flatMap WinCredEntry.bytes)) 0 =
          .ok (some held, present) ∧
      held.Holds entries := by
  intro entries
  have hutf8 : IsUtf8 [112, 119] := by simp [isUtf8_cons_iff, utf8Rest, isUtf8_nil]
  have hvalid : ∀ entry ∈ entries, entry.Valid :=
    List.forall_mem_cons.mpr ⟨⟨by decide, hutf8, by simp [isControl]⟩,
      List.forall_mem_cons.mpr
        ⟨⟨by decide, isUtf8_nil, List.forall_mem_nil _⟩, List.forall_mem_nil _⟩⟩
  have hmemory : WinCredMemory.Succeeds ⟨true, true, fun size => some (List.replicate size 255)⟩ :=
    ⟨rfl, rfl, fun size => ⟨_, rfl, List.length_replicate⟩⟩
  have hblob : IsWinCredBlob (wincredHeader 2 ++ entries.flatMap WinCredEntry.bytes) entries :=
    ⟨by decide, by decide, by decide, hvalid, by decide, rfl⟩
  obtain ⟨owner, present, hdecode, hsome, -, hholds⟩ := wincred_blob_format hmemory _ 0
  obtain ⟨held, rfl⟩ := Option.isSome_iff_exists.mp (hsome.mpr ⟨entries, hblob⟩)
  exact ⟨held, present, hdecode, (hholds held entries rfl hblob).2⟩

end Vps
