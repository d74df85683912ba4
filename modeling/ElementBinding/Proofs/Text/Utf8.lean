import ElementBinding.Text.Utf8
import Mathlib

/-!
# Decoding what was encoded

The decoder takes one octet at a time, so a character is followed from its lead octet through its
continuation octets. Every text decodes to itself from its UTF-8 form, and a tolerant reader sees
whatever a strict one sees.
-/
namespace ElementBinding.Text

private theorem decodeFrom_ascii (octet : UInt8) (rest : Octets) (h : octet.toNat < 0x80) :
    decodeFrom .between (octet :: rest) =
      some (Char.ofNat octet.toNat) :: decodeFrom .between rest := by
  simp [decodeFrom, DecodeState.step, startChar, h]

private theorem decodeFrom_lead (octet : UInt8) (rest : Octets) (count low high : Nat)
    (h : ¬octet.toNat < 0x80) (hshape : leadShape octet.toNat = some (count, low, high)) :
    decodeFrom .between (octet :: rest) =
      decodeFrom (.inside count low high (leadPayload count octet.toNat)) rest := by
  simp [decodeFrom, DecodeState.step, startChar, h, hshape]

private theorem decodeFrom_more (octet : UInt8) (rest : Octets) (missing low high value : Nat)
    (hm : 1 < missing) (hlow : low ≤ octet.toNat) (hhigh : octet.toNat ≤ high) :
    decodeFrom (.inside missing low high value) (octet :: rest) =
      decodeFrom (.inside (missing - 1) 0x80 0xBF (value * 64 + octet.toNat % 64)) rest := by
  simp [decodeFrom, DecodeState.step, hlow, hhigh, Nat.not_le.mpr hm]

private theorem decodeFrom_last (octet : UInt8) (rest : Octets) (low high value : Nat)
    (hlow : low ≤ octet.toNat) (hhigh : octet.toNat ≤ high) :
    decodeFrom (.inside 1 low high value) (octet :: rest) =
      some (Char.ofNat (value * 64 + octet.toNat % 64)) :: decodeFrom .between rest := by
  simp [decodeFrom, DecodeState.step, hlow, hhigh]

private theorem toNat_ofNat_octet (n : Nat) (h : n < 256) : (UInt8.ofNat n).toNat = n := by
  simp [Nat.mod_eq_of_lt h]

private theorem decodeFrom_two (v : Nat) (rest : Octets) (h : 0x7f < v) (h' : v ≤ 0x7ff) :
    decodeFrom .between (UInt8.ofNat (v / 64 % 0x20 + 0xc0) ::
      UInt8.ofNat (v % 0x40 + 0x80) :: rest) =
      some (Char.ofNat v) :: decodeFrom .between rest := by
  have hlead : (UInt8.ofNat (v / 64 % 0x20 + 0xc0)).toNat = v / 64 % 0x20 + 0xc0 :=
    toNat_ofNat_octet _ (by omega)
  have hlast : (UInt8.ofNat (v % 0x40 + 0x80)).toNat = v % 0x40 + 0x80 :=
    toNat_ofNat_octet _ (by omega)
  have hshape : leadShape (v / 64 % 0x20 + 0xc0) = some (1, 0x80, 0xBF) := by
    unfold leadShape
    rw [if_neg (by omega), if_pos (by omega)]
  rw [decodeFrom_lead _ _ 1 0x80 0xBF (by omega) (by rw [hlead, hshape]),
    decodeFrom_last _ _ _ _ _ (by omega) (by omega), hlead, hlast]
  rw [show leadPayload 1 (v / 64 % 0x20 + 0xc0) = (v / 64 % 0x20 + 0xc0) % 32 from rfl]
  congr 3
  omega

-- The lead octets E0 and ED narrow the range of the octet that follows them.
private theorem leadShape_three (n : Nat) (h : 0xE0 ≤ n) (h' : n ≤ 0xEF) :
    leadShape n = some (2, if n = 0xE0 then 0xA0 else 0x80, if n = 0xED then 0x9F else 0xBF) := by
  unfold leadShape
  rw [if_neg (by omega), if_neg (by omega)]
  by_cases h0 : n = 0xE0
  · simp [h0]
  · by_cases hd : n = 0xED
    · simp [hd]
    · rw [if_neg h0, if_neg hd, if_pos h']
      simp [h0, hd]

private theorem decodeFrom_three (v : Nat) (rest : Octets) (h : 0x7ff < v) (h' : v ≤ 0xffff)
    (hv : v < 0xd800 ∨ 0xdfff < v) :
    decodeFrom .between (UInt8.ofNat (v / 4096 % 0x10 + 0xe0) ::
      UInt8.ofNat (v / 64 % 0x40 + 0x80) :: UInt8.ofNat (v % 0x40 + 0x80) :: rest) =
      some (Char.ofNat v) :: decodeFrom .between rest := by
  have hlead : (UInt8.ofNat (v / 4096 % 0x10 + 0xe0)).toNat = v / 4096 % 0x10 + 0xe0 :=
    toNat_ofNat_octet _ (by omega)
  have hnext : (UInt8.ofNat (v / 64 % 0x40 + 0x80)).toNat = v / 64 % 0x40 + 0x80 :=
    toNat_ofNat_octet _ (by omega)
  have hlast : (UInt8.ofNat (v % 0x40 + 0x80)).toNat = v % 0x40 + 0x80 :=
    toNat_ofNat_octet _ (by omega)
  have hshape := leadShape_three (v / 4096 % 0x10 + 0xe0) (by omega) (by omega)
  rw [decodeFrom_lead _ _ _ _ _ (by omega) (by rw [hlead, hshape]),
    decodeFrom_more _ _ _ _ _ _ (by omega) (by rw [hnext]; split <;> omega)
      (by rw [hnext]; split <;> omega),
    decodeFrom_last _ _ _ _ _ (by omega) (by omega), hlead, hnext, hlast,
    show leadPayload 2 (v / 4096 % 0x10 + 0xe0) = (v / 4096 % 0x10 + 0xe0) % 16 from rfl]
  congr 3
  omega

private theorem leadShape_four (n : Nat) (h : 0xF0 ≤ n) (h' : n ≤ 0xF4) :
    leadShape n = some (3, if n = 0xF0 then 0x90 else 0x80, if n = 0xF4 then 0x8F else 0xBF) := by
  unfold leadShape
  rw [if_neg (by omega), if_neg (by omega), if_neg (by omega), if_neg (by omega),
    if_neg (by omega)]
  by_cases h0 : n = 0xF0
  · simp [h0]
  · by_cases h4 : n = 0xF4
    · simp [h4]
    · rw [if_neg h0, if_pos (by omega)]
      simp [h0, h4]

private theorem decodeFrom_four (v : Nat) (rest : Octets) (h : 0xffff < v) (h' : v < 0x110000) :
    decodeFrom .between (UInt8.ofNat (v / 262144 % 0x08 + 0xf0) ::
      UInt8.ofNat (v / 4096 % 0x40 + 0x80) :: UInt8.ofNat (v / 64 % 0x40 + 0x80) ::
      UInt8.ofNat (v % 0x40 + 0x80) :: rest) =
      some (Char.ofNat v) :: decodeFrom .between rest := by
  have hlead : (UInt8.ofNat (v / 262144 % 0x08 + 0xf0)).toNat = v / 262144 % 0x08 + 0xf0 :=
    toNat_ofNat_octet _ (by omega)
  have hsecond : (UInt8.ofNat (v / 4096 % 0x40 + 0x80)).toNat = v / 4096 % 0x40 + 0x80 :=
    toNat_ofNat_octet _ (by omega)
  have hnext : (UInt8.ofNat (v / 64 % 0x40 + 0x80)).toNat = v / 64 % 0x40 + 0x80 :=
    toNat_ofNat_octet _ (by omega)
  have hlast : (UInt8.ofNat (v % 0x40 + 0x80)).toNat = v % 0x40 + 0x80 :=
    toNat_ofNat_octet _ (by omega)
  have hshape := leadShape_four (v / 262144 % 0x08 + 0xf0) (by omega) (by omega)
  rw [decodeFrom_lead _ _ _ _ _ (by omega) (by rw [hlead, hshape]),
    decodeFrom_more _ _ _ _ _ _ (by omega) (by rw [hsecond]; split <;> omega)
      (by rw [hsecond]; split <;> omega),
    decodeFrom_more _ _ _ _ _ _ (by omega) (by omega) (by omega),
    decodeFrom_last _ _ _ _ _ (by omega) (by omega), hlead, hsecond, hnext, hlast,
    show leadPayload 3 (v / 262144 % 0x08 + 0xf0) = (v / 262144 % 0x08 + 0xf0) % 8 from rfl]
  congr 3
  omega

theorem decodeFrom_encodeChar (c : Char) (rest : Octets) :
    decodeFrom .between (String.utf8EncodeChar c ++ rest) =
      some c :: decodeFrom .between rest := by
  have hvalid : c.toNat < 0xd800 ∨ 0xdfff < c.toNat ∧ c.toNat < 0x110000 := c.valid
  have hchar : Char.ofNat c.toNat = c := Char.ofNat_toNat c
  unfold String.utf8EncodeChar
  change decodeFrom .between ((if c.toNat ≤ 0x7f then _ else if c.toNat ≤ 0x7ff then _ else
    if c.toNat ≤ 0xffff then _ else _) ++ rest) = _
  split
  · next h1 =>
    have hval : (UInt8.ofNat c.toNat).toNat = c.toNat := toNat_ofNat_octet _ (by omega)
    have h := decodeFrom_ascii (UInt8.ofNat c.toNat) rest (by omega)
    rwa [hval, hchar] at h
  · split
    · have h := decodeFrom_two c.toNat rest (by omega) (by omega)
      rwa [hchar] at h
    · split
      · have h := decodeFrom_three c.toNat rest (by omega) (by omega) (by omega)
        rwa [hchar] at h
      · have h := decodeFrom_four c.toNat rest (by omega) (by omega)
        rwa [hchar] at h

theorem decode_encode (text : String) : decode (encode text) = text.toList.map some := by
  unfold decode encode
  induction text.toList with
  | nil => rfl
  | cons c rest ih => rw [List.flatMap_cons, decodeFrom_encodeChar, ih, List.map_cons]

private theorem mapM_id_map_some (chars : List Char) : (chars.map some).mapM id = some chars := by
  induction chars with
  | nil => rfl
  | cons c rest ih => simp [List.mapM_cons, ih]

theorem decodeStrict_encode (text : String) : decodeStrict (encode text) = some text.toList := by
  rw [decodeStrict, decode_encode, mapM_id_map_some]

theorem decodeTolerant_encode (text : String) : decodeTolerant (encode text) = text.toList := by
  simp [decodeTolerant, decode_encode]

theorem toList_eq_of_encode_eq {text other : String} (h : encode text = encode other) :
    text.toList = other.toList := by
  rw [← decodeTolerant_encode, ← decodeTolerant_encode, h]

theorem decode_of_decodeStrict {octets : Octets} {text : List Char}
    (h : decodeStrict octets = some text) : decode octets = text.map some := by
  unfold decodeStrict at h
  generalize decode octets = found at h ⊢
  induction found generalizing text with
  | nil =>
    obtain rfl : text = [] := by simpa using h
    rfl
  | cons c rest ih =>
    cases c with
    | none => simp [List.mapM_cons] at h
    | some c =>
      simp only [List.mapM_cons, id, Option.pure_def, Option.bind_eq_bind, Option.bind_some,
        Option.bind_eq_some_iff, Option.some.injEq] at h
      obtain ⟨tail, htail, rfl⟩ := h
      rw [ih htail, List.map_cons]

theorem decodeTolerant_of_decodeStrict {octets : Octets} {text : List Char}
    (h : decodeStrict octets = some text) : decodeTolerant octets = text := by
  simp [decodeTolerant, decode_of_decodeStrict h]

/-- An open character of well-formed octets goes on with an octet in its range. -/
private theorem decodeFrom_inside {missing low high value : Nat} {octets : Octets}
    {text : List Char} (h : decodeFrom (.inside missing low high value) octets = text.map some) :
    ∃ octet rest, octets = octet :: rest ∧ low ≤ octet.toNat ∧ octet.toNat ≤ high ∧
      if missing ≤ 1 then ∃ tail, text = Char.ofNat (value * 64 + octet.toNat % 64) :: tail ∧
        decodeFrom .between rest = tail.map some
      else decodeFrom (.inside (missing - 1) 0x80 0xBF (value * 64 + octet.toNat % 64)) rest =
        text.map some := by
  cases octets with
  | nil => cases text <;> simp [decodeFrom] at h
  | cons octet rest =>
    simp only [decodeFrom, DecodeState.step, Bool.and_eq_true, decide_eq_true_eq] at h
    split at h
    · rename_i hrange
      refine ⟨octet, rest, rfl, hrange.1, hrange.2, ?_⟩
      split
      · rename_i hlast
        rw [if_pos hlast] at h
        cases text with
        | nil => simp at h
        | cons c tail =>
          obtain ⟨hc, htail⟩ := List.cons.inj h
          exact ⟨tail, by rw [Option.some.inj hc], htail⟩
      · rename_i hmore
        rwa [if_neg hmore] at h
    · cases text <;> simp at h

private theorem encodeChar_ofNat (octets : Octets) {n : Nat}
    (h : n < 0xd800 ∨ 0xdfff < n ∧ n < 0x110000)
    (hoctets : octets.map UInt8.toNat =
      if n ≤ 0x7f then [n]
      else if n ≤ 0x7ff then [n / 64 % 0x20 + 0xc0, n % 0x40 + 0x80]
      else if n ≤ 0xffff then [n / 4096 % 0x10 + 0xe0, n / 64 % 0x40 + 0x80, n % 0x40 + 0x80]
      else [n / 262144 % 0x08 + 0xf0, n / 4096 % 0x40 + 0x80, n / 64 % 0x40 + 0x80,
        n % 0x40 + 0x80]) :
    String.utf8EncodeChar (Char.ofNat n) = octets := by
  have hchar : (Char.ofNat n).val.toNat = n := by
    rw [← Char.toNat, Char.toNat_ofNat, if_pos h]
  have hback : (octets.map UInt8.toNat).map UInt8.ofNat = octets := by
    rw [List.map_map]
    exact List.map_id'' (fun octet => UInt8.ofNat_toNat) octets
  rw [← hback, hoctets]
  unfold String.utf8EncodeChar
  simp only [hchar]
  split
  · rfl
  · split
    · rfl
    · split <;> rfl

/-- The octets are those of the first character of the text, and well-formed ones of the others. -/
private def BeginsText (octets : Octets) (text : List Char) : Prop :=
  ∃ c tail more, text = c :: tail ∧ octets = String.utf8EncodeChar c ++ more ∧
    decodeFrom .between more = tail.map some

section Lead
variable {lead : UInt8} {rest : Octets} {text : List Char}

private theorem beginsText_one (h : decodeFrom .between (lead :: rest) = text.map some)
    (hlead : lead.toNat < 0x80) : BeginsText (lead :: rest) text := by
  rw [decodeFrom_ascii lead rest hlead] at h
  cases text with
  | nil => simp at h
  | cons c tail =>
    obtain ⟨hc, htail⟩ := List.cons.inj h
    refine ⟨c, tail, rest, rfl, ?_, htail⟩
    rw [← Option.some.inj hc, encodeChar_ofNat [lead] (by omega) (by rw [if_pos (by omega)]; rfl)]
    rfl

private theorem beginsText_two
    (h : decodeFrom (.inside 1 0x80 0xBF (leadPayload 1 lead.toNat)) rest = text.map some)
    (hlead : 0xC2 ≤ lead.toNat ∧ lead.toNat ≤ 0xDF) : BeginsText (lead :: rest) text := by
  obtain ⟨last, more, rfl, hlow, hhigh, tail, rfl, htail⟩ := decodeFrom_inside h
  refine ⟨_, tail, more, rfl, ?_, htail⟩
  rw [show leadPayload 1 lead.toNat = lead.toNat % 32 from rfl,
    encodeChar_ofNat [lead, last] (by omega) ?_]
  · rfl
  · rw [if_neg (by omega), if_pos (by omega)]
    simp only [List.map_cons, List.map_nil, List.cons.injEq, and_true]
    omega

private theorem beginsText_three {low high : Nat}
    (h : decodeFrom (.inside 2 low high (leadPayload 2 lead.toNat)) rest = text.map some)
    (hlead : 0xE0 ≤ lead.toNat ∧ lead.toNat ≤ 0xEF)
    (hlow : low = if lead.toNat = 0xE0 then 0xA0 else 0x80)
    (hhigh : high = if lead.toNat = 0xED then 0x9F else 0xBF) :
    BeginsText (lead :: rest) text := by
  obtain ⟨next, more, rfl, habove, hbelow, hmore⟩ := decodeFrom_inside h
  obtain ⟨last, more, rfl, habove', hbelow', tail, rfl, htail⟩ := decodeFrom_inside hmore
  -- No overlong form follows E0, and no surrogate follows ED.
  have hnext : 0x80 ≤ next.toNat ∧ next.toNat ≤ 0xBF ∧ (lead.toNat = 0xE0 → 0xA0 ≤ next.toNat) ∧
      (lead.toNat = 0xED → next.toNat ≤ 0x9F) := by
    split at hlow <;> split at hhigh <;> omega
  clear hlow hhigh habove hbelow
  refine ⟨_, tail, more, rfl, ?_, htail⟩
  rw [show leadPayload 2 lead.toNat = lead.toNat % 16 from rfl,
    encodeChar_ofNat [lead, next, last] (by omega) ?_]
  · rfl
  · rw [if_neg (by omega), if_neg (by omega), if_pos (by omega)]
    simp only [List.map_cons, List.map_nil, List.cons.injEq, and_true]
    omega

private theorem beginsText_four {low high : Nat}
    (h : decodeFrom (.inside 3 low high (leadPayload 3 lead.toNat)) rest = text.map some)
    (hlead : 0xF0 ≤ lead.toNat ∧ lead.toNat ≤ 0xF4)
    (hlow : low = if lead.toNat = 0xF0 then 0x90 else 0x80)
    (hhigh : high = if lead.toNat = 0xF4 then 0x8F else 0xBF) :
    BeginsText (lead :: rest) text := by
  obtain ⟨second, more, rfl, habove, hbelow, hmore⟩ := decodeFrom_inside h
  obtain ⟨next, more, rfl, habove', hbelow', hmore⟩ := decodeFrom_inside hmore
  obtain ⟨last, more, rfl, habove'', hbelow'', tail, rfl, htail⟩ := decodeFrom_inside hmore
  -- No overlong form follows F0, and nothing beyond the last code point follows F4.
  have hsecond : 0x80 ≤ second.toNat ∧ second.toNat ≤ 0xBF ∧
      (lead.toNat = 0xF0 → 0x90 ≤ second.toNat) ∧ (lead.toNat = 0xF4 → second.toNat ≤ 0x8F) := by
    split at hlow <;> split at hhigh <;> omega
  clear hlow hhigh habove hbelow
  refine ⟨_, tail, more, rfl, ?_, htail⟩
  rw [show leadPayload 3 lead.toNat = lead.toNat % 8 from rfl,
    encodeChar_ofNat [lead, second, next, last] (by omega) ?_]
  · rfl
  · rw [if_neg (by omega), if_neg (by omega), if_neg (by omega)]
    simp only [List.map_cons, List.map_nil, List.cons.injEq, and_true]
    omega

private theorem decodeFrom_cons (h : decodeFrom .between (lead :: rest) = text.map some) :
    BeginsText (lead :: rest) text := by
  by_cases hone : lead.toNat < 0x80
  · exact beginsText_one h hone
  have hopen {count low high : Nat} (hshape : leadShape lead.toNat = some (count, low, high)) :=
    (decodeFrom_lead lead rest count low high hone hshape).symm.trans h
  by_cases htwo : 0xC2 ≤ lead.toNat ∧ lead.toNat ≤ 0xDF
  · have hshape : leadShape lead.toNat = some (1, 0x80, 0xBF) := by
      unfold leadShape
      rw [if_neg (by omega), if_pos (by omega)]
    exact beginsText_two (hopen hshape) htwo
  by_cases hthree : 0xE0 ≤ lead.toNat ∧ lead.toNat ≤ 0xEF
  · exact beginsText_three (hopen (leadShape_three _ hthree.1 hthree.2)) hthree rfl rfl
  by_cases hfour : 0xF0 ≤ lead.toNat ∧ lead.toNat ≤ 0xF4
  · exact beginsText_four (hopen (leadShape_four _ hfour.1 hfour.2)) hfour rfl rfl
  · have hshape : leadShape lead.toNat = none := by
      unfold leadShape
      grind
    cases text <;> simp [decodeFrom, DecodeState.step, startChar, hone, hshape] at h

end Lead

/-- Well-formed octets are the UTF-8 form of what they decode to. -/
theorem encode_of_decodeStrict {octets : Octets} {text : List Char}
    (h : decodeStrict octets = some text) : text.flatMap String.utf8EncodeChar = octets := by
  have hdecode : decodeFrom .between octets = text.map some := decode_of_decodeStrict h
  clear h
  induction hlength : octets.length using Nat.strong_induction_on generalizing octets text with
  | _ n ih =>
  subst hlength
  cases octets with
  | nil =>
    cases text with
    | nil => rfl
    | cons c tail => simp [decodeFrom] at hdecode
  | cons lead rest =>
    obtain ⟨c, tail, more, rfl, hfront, htail⟩ := decodeFrom_cons hdecode
    have hshorter : more.length < (lead :: rest).length := by
      rw [hfront, List.length_append]
      have hpos := c.utf8Size_pos
      rw [← String.length_utf8EncodeChar] at hpos
      exact Nat.lt_add_of_pos_left hpos
    rw [List.flatMap_cons, ih _ hshorter htail rfl, hfront]

end ElementBinding.Text
