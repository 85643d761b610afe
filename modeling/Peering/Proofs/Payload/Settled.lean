import Peering.Proofs.Payload.Sound

/-!
# Fields that settle

A reader of a field settles as soon as it has the bytes it asks for: bytes that
come later change neither the value nor the complaint, unless the complaint was
that bytes were missing. Settled readers put one after the other are settled,
and a settled reader followed by the end of the payload is self-delimiting: of
all that begins with an accepted payload, only the payload itself is accepted.
-/

namespace Peering

namespace Payload

section Settled

variable {ε α β : Type} {wrap : PayloadError → ε} {reader : StateT Bytes (Except ε) α}

/--
What a reader says is decided by the bytes that it uses, and not by what comes
after them. An error of the payload stands among the errors of the reader by
`wrap`; that bytes follow the payload is for no field to say.
-/
structure Settles (wrap : PayloadError → ε) (reader : StateT Bytes (Except ε) α) : Prop where
  ok : ∀ {bytes rest value}, reader bytes = .ok (value, rest) →
    ∃ used, bytes = used ++ rest ∧ ∀ more, reader (used ++ more) = .ok (value, more)
  error : ∀ {bytes error}, reader bytes = .error error →
    (∃ field, error = wrap (.truncated field)) ∨
      (∀ more, reader (bytes ++ more) = .error error) ∧ ∀ count, error ≠ wrap (.trailing count)

namespace Settles

theorem pure (value : α) : Settles wrap (pure value) where
  ok hread := by
    obtain ⟨rfl, rfl⟩ := Reader.pure_eq_ok_iff.mp hread
    exact ⟨[], rfl, fun _ => rfl⟩
  error hread := by cases hread

theorem throw {error : ε} (hfield : ∀ count, error ≠ wrap (.trailing count)) :
    Settles wrap (throw error : StateT Bytes (Except ε) α) where
  ok hread := by cases hread
  error hread := by
    cases hread
    exact Or.inr ⟨fun _ => rfl, hfield⟩

/-- The second reader settles on the bytes that the first one leaves. -/
theorem bind {next : α → StateT Bytes (Except ε) β} (hreader : Settles wrap reader)
    (hnext : ∀ value, Settles wrap (next value)) : Settles wrap (reader >>= next) where
  ok hread := by
    obtain ⟨first, middle, hfirst, hsecond⟩ := Reader.bind_eq_ok_iff.mp hread
    obtain ⟨used, rfl, hused⟩ := hreader.ok hfirst
    obtain ⟨usedNext, rfl, husedNext⟩ := (hnext first).ok hsecond
    refine ⟨used ++ usedNext, (List.append_assoc _ _ _).symm, fun more => ?_⟩
    rw [List.append_assoc, Reader.bind_ok (hused _), husedNext]
  error hread := by
    rcases Reader.bind_eq_error_iff.mp hread with hfirst | ⟨first, middle, hfirst, hsecond⟩
    · refine (hreader.error hfirst).imp_right fun ⟨hstays, hfield⟩ => ⟨fun more => ?_, hfield⟩
      exact Reader.bind_error (hstays more)
    · obtain ⟨used, rfl, hused⟩ := hreader.ok hfirst
      refine ((hnext first).error hsecond).imp_right fun ⟨hstays, hfield⟩ =>
        ⟨fun more => ?_, hfield⟩
      rw [List.append_assoc, Reader.bind_ok (hused _), hstays]

end Settles

/-! ## Self-delimiting formats -/

/-- The value of a payload that a reader uses up. -/
def whole (wrap : PayloadError → ε) (reader : StateT Bytes (Except ε) α) (payload : Bytes) :
    Except ε α :=
  match reader payload with
  | .error error => .error error
  | .ok (value, rest) =>
      if rest.isEmpty then .ok value else .error (wrap (.trailing rest.length))

/-- The same as a reader that ends by asking for the end of the bytes. -/
theorem map_bind_finish {ending : StateT Bytes (Except ε) Unit}
    (hending : ∀ bytes, ending bytes = (finish bytes).mapError wrap) (payload : Bytes) :
    (·.1) <$> (reader >>= fun value => ending >>= fun _ => Pure.pure value) payload =
      whole wrap reader payload := by
  cases hread : reader payload with
  | error error => rw [Reader.bind_error hread, whole, hread]; rfl
  | ok read =>
      obtain ⟨value, rest⟩ := read
      rw [Reader.bind_ok hread, whole, hread]
      cases rest with
      | nil => rw [Reader.bind_ok (hending [])]; rfl
      | cons byte later => rw [Reader.bind_error (hending (byte :: later))]; rfl

/-- No accepted payload begins another, and the errors say by how much a payload misses. -/
structure SelfDelimiting (wrap : PayloadError → ε) (decode : Bytes → Except ε α) : Prop where
  short : ∀ {payload value}, decode payload = .ok value → ∀ part, part <+: payload →
    part ≠ payload → ∃ field, decode part = .error (wrap (.truncated field))
  long : ∀ {payload value}, decode payload = .ok value → ∀ more, more ≠ [] →
    decode (payload ++ more) = .error (wrap (.trailing more.length))
  trailing : ∀ {payload count}, decode payload = .error (wrap (.trailing count)) →
    0 < count ∧ count ≤ payload.length ∧
      ∃ value, decode (payload.take (payload.length - count)) = .ok value

theorem whole_eq_ok_iff {payload : Bytes} {value : α} :
    whole wrap reader payload = .ok value ↔ reader payload = .ok (value, []) := by
  cases hread : reader payload with
  | error error => simp [whole, hread]
  | ok read =>
      obtain ⟨found, rest⟩ := read
      cases rest <;> simp [whole, hread]

theorem whole_of_error {payload : Bytes} {error : ε} (hread : reader payload = .error error) :
    whole wrap reader payload = .error error := by
  rw [whole, hread]

theorem whole_of_rest {payload rest : Bytes} {value : α}
    (hread : reader payload = .ok (value, rest)) (hrest : rest ≠ []) :
    whole wrap reader payload = .error (wrap (.trailing rest.length)) := by
  have hsome : rest.isEmpty = false := by simpa using hrest
  rw [whole, hread]
  simp [hsome]

theorem Settles.selfDelimiting (hwrap : ∀ a b, wrap a = wrap b → a = b)
    (hreader : Settles wrap reader) : SelfDelimiting wrap (whole wrap reader) where
  short {payload value} hvalue part hpart hproper := by
    obtain ⟨more, rfl⟩ := hpart
    have hmore : more ≠ [] := by simpa using hproper
    rw [whole_eq_ok_iff] at hvalue
    cases hread : reader part with
    | ok read =>
        -- the part would leave the bytes that are missing to it unread
        obtain ⟨used, rfl, hused⟩ := hreader.ok hread
        rw [List.append_assoc, hused, Except.ok.injEq, Prod.mk.injEq, List.append_eq_nil_iff]
          at hvalue
        exact absurd hvalue.2.2 hmore
    | error error =>
        rcases hreader.error hread with ⟨field, rfl⟩ | ⟨hstays, -⟩
        · exact ⟨field, whole_of_error hread⟩
        · rw [hstays] at hvalue
          cases hvalue
  long {payload value} hvalue more hmore := by
    rw [whole_eq_ok_iff] at hvalue
    obtain ⟨used, hpayload, hused⟩ := hreader.ok hvalue
    rw [List.append_nil] at hpayload
    subst hpayload
    exact whole_of_rest (hused more) hmore
  trailing {payload count} herror := by
    cases hread : reader payload with
    | error error =>
        rw [whole_of_error hread] at herror
        cases herror
        rcases hreader.error hread with ⟨field, hfield⟩ | ⟨-, hfield⟩
        · cases hwrap _ _ hfield
        · exact absurd rfl (hfield count)
    | ok read =>
        obtain ⟨value, rest⟩ := read
        obtain ⟨used, rfl, hused⟩ := hreader.ok hread
        by_cases hrest : rest = []
        · subst hrest
          rw [whole_eq_ok_iff.mpr hread] at herror
          cases herror
        · rw [whole_of_rest hread hrest, Except.error.injEq] at herror
          cases hwrap _ _ herror
          have htake : (used ++ rest).take ((used ++ rest).length - rest.length) = used := by
            simp
          refine ⟨List.length_pos_iff.mpr hrest, by simp, value, ?_⟩
          rw [htake, whole_eq_ok_iff]
          simpa using hused []

/-- Only a payload to which bytes are missing can become one that is accepted. -/
theorem SelfDelimiting.refused {decode : Bytes → Except ε α} (hdecode : SelfDelimiting wrap decode)
    {payload : Bytes} {error : ε} (herror : decode payload = .error error)
    (hfield : ∀ field, error ≠ wrap (.truncated field)) (more : Bytes) (value : α) :
    decode (payload ++ more) ≠ .ok value := by
  intro hvalue
  by_cases hmore : more = []
  · rw [hmore, List.append_nil, herror] at hvalue
    cases hvalue
  · have hproper : payload ≠ payload ++ more := by simpa using hmore
    obtain ⟨field, hshort⟩ := hdecode.short hvalue payload (List.prefix_append _ _) hproper
    rw [herror] at hshort
    cases hshort
    exact hfield field rfl

end Settled

/-! ## The fields settle -/

section Fields

variable {α : Type} {reader : Reader α}

theorem settles_take (count : Nat) (field : String) : Settles id (take count field) where
  ok hread := by
    obtain ⟨rfl, hlength⟩ := take_sound hread
    exact ⟨_, rfl, fun _ => take_append hlength⟩
  error hread := by
    rw [take] at hread
    split at hread
    · cases hread
      exact Or.inl ⟨field, rfl⟩
    · cases hread

theorem settles_number (width : Nat) (field : String) : Settles id (number width field) :=
  (settles_take width field).bind fun _ => .pure _

theorem settles_byte (field : String) : Settles id (byte field) :=
  (settles_number 1 field).bind fun _ => .pure _

theorem settles_word (field : String) : Settles id (word field) :=
  (settles_number 2 field).bind fun _ => .pure _

theorem settles_nodeId : Settles id nodeId where
  ok hread := by
    obtain rfl := nodeId_sound hread
    exact ⟨_, rfl, fun _ => nodeId_append _⟩
  error hread := by
    rw [nodeId] at hread
    split at hread
    · cases hread
    · cases hread
      exact Or.inl ⟨"node id", rfl⟩

theorem settles_ip : Settles id ip := by
  refine (settles_byte "ip length").bind fun length => ?_
  split
  · exact (settles_number 4 "ipv4").bind fun _ => .pure _
  · split
    · exact (settles_number 16 "ipv6").bind fun _ => .pure _
    · exact .throw fun _ => nofun

theorem settles_short (field : String) : Settles id (short field) := by
  refine (settles_byte field).bind fun length => ?_
  split
  · exact .throw fun _ => nofun
  · exact settles_take length.toNat field

theorem settles_varintFrom (room shift start : Nat) : Settles id (varintFrom room shift start) := by
  induction room generalizing shift start with
  | zero => exact .throw fun _ => nofun
  | succ room ih =>
      have hcons : ∀ next more, varintFrom (room + 1) shift start (next :: more) =
          if next.toNat < 0x80 then
            .ok (UInt64.ofNat (start + (next.toNat % 0x80) <<< shift), more)
          else varintFrom room (shift + 7) (start + (next.toNat % 0x80) <<< shift) more :=
        fun _ _ => rfl
      constructor
      · intro bytes rest value hread
        cases bytes with
        | nil => cases hread
        | cons next tail =>
            rw [hcons] at hread
            split at hread
            · rename_i hlast
              cases hread
              exact ⟨[next], rfl, fun more => by rw [List.singleton_append, hcons, if_pos hlast]⟩
            · rename_i hgoes
              obtain ⟨used, rfl, hused⟩ := (ih _ _).ok hread
              refine ⟨next :: used, rfl, fun more => ?_⟩
              rw [List.cons_append, hcons, if_neg hgoes, hused]
      · intro bytes error hread
        cases bytes with
        | nil =>
            cases hread
            exact Or.inl ⟨"varint", rfl⟩
        | cons next tail =>
            rw [hcons] at hread
            split at hread
            · cases hread
            · rename_i hgoes
              refine ((ih _ _).error hread).imp_right fun ⟨hstays, hfield⟩ =>
                ⟨fun more => ?_, hfield⟩
              rw [List.cons_append, hcons, if_neg hgoes, hstays]

theorem settles_varint : Settles id varint :=
  settles_varintFrom varintRoom 0 0

theorem settles_many (hreader : Settles id reader) (count : Nat) :
    Settles id (many reader count) := by
  induction count with
  | zero => exact .pure _
  | succ count ih => exact hreader.bind fun _ => ih.bind fun _ => .pure _

end Fields

/-! ## What is missing can be supplied -/

section Missing

variable {α β : Type} {reader : Reader α}

/-- Where bytes are missing, there are bytes that complete what was begun. -/
def Mends (reader : Reader α) : Prop :=
  ∀ bytes field, reader bytes = .error (.truncated field) →
    ∃ more value, reader (bytes ++ more) = .ok (value, [])

/-- A reader whose value can be begun, and completed wherever the bytes end. -/
structure Completes (reader : Reader α) : Prop where
  begins : ∃ bytes value, reader bytes = .ok (value, [])
  mends : Mends reader

namespace Completes

theorem pure (value : α) : Completes (pure value) where
  begins := ⟨[], value, rfl⟩
  mends _ _ hread := by cases hread

theorem bind {next : α → Reader β} (hreader : Completes reader) (hsettles : Settles id reader)
    (hnext : ∀ value, Completes (next value)) : Completes (reader >>= next) where
  begins := by
    obtain ⟨bytes, first, hfirst⟩ := hreader.begins
    obtain ⟨more, second, hsecond⟩ := (hnext first).begins
    obtain ⟨used, rfl, hused⟩ := hsettles.ok hfirst
    refine ⟨used ++ more, second, ?_⟩
    rw [Reader.bind_ok (hused more), hsecond]
  mends bytes field hread := by
    rcases Reader.bind_eq_error_iff.mp hread with hfirst | ⟨first, middle, hfirst, hsecond⟩
    · obtain ⟨more, first, hfirst⟩ := hreader.mends bytes field hfirst
      obtain ⟨used, hwhole, hused⟩ := hsettles.ok hfirst
      obtain ⟨later, second, hsecond⟩ := (hnext first).begins
      rw [List.append_nil] at hwhole
      refine ⟨more ++ later, second, ?_⟩
      rw [← List.append_assoc, hwhole, Reader.bind_ok (hused later), hsecond]
    · obtain ⟨used, rfl, hused⟩ := hsettles.ok hfirst
      obtain ⟨more, second, hmended⟩ := (hnext first).mends middle field hsecond
      refine ⟨more, second, ?_⟩
      rw [List.append_assoc, Reader.bind_ok (hused _), hmended]

end Completes

/-- A length byte is missing only where there are no bytes, and there a good length can be chosen. -/
theorem completes_byte_bind {next : UInt8 → Reader α} (field : String) (good : UInt8)
    (hgood : Completes (next good)) (hnext : ∀ length, Mends (next length)) :
    Completes (byte field >>= next) where
  begins := by
    obtain ⟨more, value, hvalue⟩ := hgood.begins
    exact ⟨good :: more, value, by rw [Reader.bind_ok (byte_cons good), hvalue]⟩
  mends bytes lacking hread := by
    cases bytes with
    | nil =>
        obtain ⟨more, value, hvalue⟩ := hgood.begins
        exact ⟨good :: more, value, by
          rw [List.nil_append, Reader.bind_ok (byte_cons good), hvalue]⟩
    | cons length later =>
        rw [Reader.bind_ok (byte_cons length)] at hread
        obtain ⟨more, value, hvalue⟩ := hnext length later lacking hread
        exact ⟨more, value, by
          rw [List.cons_append, Reader.bind_ok (byte_cons length), hvalue]⟩

theorem mends_throw {error : PayloadError} (hfield : ∀ field, error ≠ .truncated field) :
    Mends (throw error : Reader α) := by
  intro bytes field hread
  cases hread
  exact absurd rfl (hfield field)

theorem completes_take (count : Nat) (field : String) : Completes (take count field) where
  begins := by
    have hread := @take_append (List.replicate count 0) [] field count List.length_replicate
    exact ⟨_, _, by simpa using hread⟩
  mends bytes lacking hread := by
    rw [take] at hread
    split at hread
    · have hlength : (bytes ++ List.replicate (count - bytes.length) 0).length = count := by
        rw [List.length_append, List.length_replicate]
        omega
      have hread := @take_append _ [] field count hlength
      exact ⟨_, _, by simpa using hread⟩
    · cases hread

theorem completes_number (width : Nat) (field : String) : Completes (number width field) :=
  (completes_take width field).bind (settles_take width field) fun _ => .pure _

theorem completes_word (field : String) : Completes (word field) :=
  (completes_number 2 field).bind (settles_number 2 field) fun _ => .pure _

theorem completes_nodeId : Completes nodeId := by
  have hzeros : ∀ bytes : Bytes, bytes.length ≤ NodeId.byteLength →
      ∃ more value, nodeId (bytes ++ more) = .ok (value, []) := by
    intro bytes hshort
    have hlength : (bytes ++ List.replicate (NodeId.byteLength - bytes.length) 0).length = 36 := by
      rw [NodeId.byteLength] at hshort ⊢
      rw [List.length_append, List.length_replicate]
      omega
    have hread := @nodeId_append [] ⟨_, hlength⟩
    exact ⟨_, _, by simpa using hread⟩
  constructor
  · obtain ⟨more, value, hvalue⟩ := hzeros [] (Nat.zero_le _)
    exact ⟨[] ++ more, value, hvalue⟩
  · intro bytes field hread
    apply hzeros
    rw [nodeId] at hread
    split at hread
    · cases hread
    · rename_i hnone
      rw [NodeId.ofBytes?] at hnone
      split at hnone
      · cases hnone
      · rename_i hshort
        rw [NodeId.byteLength, List.length_take] at hshort
        rw [NodeId.byteLength]
        omega

theorem completes_ip : Completes ip := by
  apply completes_byte_bind "ip length" 4
  · exact (completes_number 4 "ipv4").bind (settles_number 4 "ipv4") fun _ => .pure _
  · intro length
    split
    · exact ((completes_number 4 "ipv4").bind (settles_number 4 "ipv4") fun _ => .pure _).mends
    · split
      · exact ((completes_number 16 "ipv6").bind (settles_number 16 "ipv6") fun _ => .pure _).mends
      · exact mends_throw fun _ => nofun

theorem completes_short (field : String) : Completes (short field) := by
  apply completes_byte_bind field 0
  · exact completes_take 0 field
  · intro length
    split
    · exact mends_throw fun _ => nofun
    · exact (completes_take length.toNat field).mends

theorem completes_many (hreader : Completes reader) (hsettles : Settles id reader) (count : Nat) :
    Completes (many reader count) := by
  induction count with
  | zero => exact .pure _
  | succ count ih =>
      exact hreader.bind hsettles fun _ => ih.bind (settles_many hsettles count) fun _ => .pure _

/-- Bytes are missing exactly where an accepted payload begins and goes on. -/
theorem truncated_iff (hcompletes : Completes reader) (hsettles : Settles id reader)
    (payload : Bytes) :
    (∃ field, whole id reader payload = .error (.truncated field)) ↔
      ∃ full value, whole id reader full = .ok value ∧ payload <+: full ∧ payload ≠ full := by
  constructor
  · rintro ⟨field, htruncated⟩
    cases hread : reader payload with
    | ok read =>
        rw [whole, hread] at htruncated
        dsimp only at htruncated
        split at htruncated <;> cases htruncated
    | error error =>
        rw [whole_of_error hread] at htruncated
        cases htruncated
        obtain ⟨more, value, hvalue⟩ := hcompletes.mends payload field hread
        refine ⟨payload ++ more, value, whole_eq_ok_iff.mpr hvalue, List.prefix_append _ _, ?_⟩
        intro hsame
        rw [← hsame, hread] at hvalue
        cases hvalue
  · rintro ⟨full, value, hvalue, hprefix, hproper⟩
    exact (hsettles.selfDelimiting fun _ _ hsame => hsame).short hvalue payload hprefix hproper

end Missing

end Payload

end Peering
