import LineShell.Text.Utf8

/-! # UTF-8 round trip — what is encoded is decoded, and nothing else

    The bytes of a character are one sequence: its first byte says how
    long it is, the others continue it, and no sequence is longer than it
    has to be.  So the decoder takes the bytes of the characters of a text
    off one by one (`decodeUtf8From_char`), and reads back every text
    (`decodeUtf8_encodeUtf8`).  And whatever sequence it takes off is that
    of a character (`of_decodeUtf8From`), so it reads the bytes of texts
    only (`decodeUtf8_ok_iff`). -/

namespace LineShell.Text

/-! ## Bytes -/

/-- Gathering the bytes of an array from a position on. -/
theorem byteArray_toList_loop (bytes : ByteArray) (position : Nat)
    (gathered : List UInt8) :
    ByteArray.toList.loop bytes position gathered =
      gathered.reverse ++ bytes.data.toList.drop position := by
  fun_induction ByteArray.toList.loop bytes position gathered with
  | case1 position gathered h ih =>
      have hlt : position < bytes.data.toList.length := h
      have hget : bytes.get! position = bytes.data.toList[position] := by
        show bytes.data[position]! = _
        rw [getElem!_pos bytes.data position hlt, Array.getElem_toList]
      rw [ih, hget, List.reverse_cons, List.append_assoc,
        List.drop_eq_getElem_cons hlt, List.singleton_append]
  | case2 position gathered h =>
      have hle : bytes.data.toList.length ≤ position := Nat.not_lt.mp h
      rw [List.drop_eq_nil_of_le hle, List.append_nil]

/-- The bytes of a text are those of its characters, one after the
    other. -/
theorem encodeUtf8_eq (s : String) :
    encodeUtf8 s = s.toList.flatMap String.utf8EncodeChar := by
  have hbytes : s.toUTF8 =
      (s.toList.flatMap String.utf8EncodeChar).toByteArray :=
    String.utf8Encode_toList.symm
  rw [encodeUtf8, ByteArray.toList, byteArray_toList_loop, hbytes,
    List.toList_data_toByteArray]
  rfl

/-! ## What the tests on bytes say -/

theorem sequenceSize?_eq (b : UInt8) :
    sequenceSize? b =
      if b.toNat < 0x80 then some 1
      else if b.toNat < 0xc2 then none
      else if b.toNat < 0xe0 then some 2
      else if b.toNat < 0xf0 then some 3
      else if b.toNat < 0xf5 then some 4
      else none := by
  simp only [sequenceSize?, UInt8.lt_iff_toNat_lt, UInt8.toNat_ofNat,
    Nat.reducePow, Nat.reduceMod]

theorem isContinuation_iff (b : UInt8) :
    isContinuation b = true ↔ 0x80 ≤ b.toNat ∧ b.toNat < 0xc0 := by
  simp only [isContinuation, Bool.and_eq_true, decide_eq_true_eq,
    UInt8.le_iff_toNat_le, UInt8.lt_iff_toNat_lt, UInt8.toNat_ofNat,
    Nat.reducePow, Nat.reduceMod]

/-- The second byte continues the sequence, and the narrower bounds hold
    where the first byte asks for them. -/
theorem mayFollow_iff (a b : UInt8) :
    mayFollow a b = true ↔
      (0x80 ≤ b.toNat ∧ b.toNat < 0xc0) ∧
        (a.toNat = 0xe0 → 0xa0 ≤ b.toNat) ∧
        (a.toNat = 0xed → b.toNat < 0xa0) ∧
        (a.toNat = 0xf0 → 0x90 ≤ b.toNat) ∧
        (a.toNat = 0xf4 → b.toNat < 0x90) := by
  have heq : ∀ c : UInt8, (a == c) = decide (a.toNat = c.toNat) := by
    intro c
    rw [Bool.eq_iff_iff, beq_iff_eq, decide_eq_true_eq, UInt8.toNat_inj]
  simp only [mayFollow, heq, Bool.and_eq_true, isContinuation_iff,
    Bool.not_eq_true', Bool.and_eq_false_iff, decide_eq_false_iff_not,
    UInt8.le_iff_toNat_le, UInt8.lt_iff_toNat_lt, UInt8.toNat_ofNat,
    Nat.reducePow, Nat.reduceMod]
  omega

theorem toNat_ofNat_of_lt {n : Nat} (h : n < 256) :
    (UInt8.ofNat n).toNat = n := by
  rw [UInt8.toNat_ofNat']
  exact Nat.mod_eq_of_lt h

/-- A byte that carries six bits. -/
theorem toNat_continuation (n : Nat) :
    (UInt8.ofNat (n % 64 + 128)).toNat = n % 64 + 128 :=
  toNat_ofNat_of_lt (by omega)

/-- It continues a sequence. -/
theorem isContinuation_ofNat (n : Nat) :
    isContinuation (UInt8.ofNat (n % 64 + 128)) = true := by
  rw [isContinuation_iff, toNat_continuation]
  omega

/-- The bits are what it carries. -/
theorem payload_ofNat (n : Nat) :
    payload (UInt8.ofNat (n % 64 + 128)) = n % 64 := by
  rw [payload, toNat_continuation]
  omega

/-! ## One character, by the length of its sequence -/

section Sequences

variable {n : Nat} (position : Nat) (rest : List UInt8)

theorem decodeUtf8From_one (h : n ≤ 0x7f) :
    decodeUtf8From position (UInt8.ofNat n :: rest) =
      (decodeUtf8From (position + 1) rest).map (Char.ofNat n :: ·) := by
  have hbyte : (UInt8.ofNat n).toNat = n := toNat_ofNat_of_lt (by omega)
  have hsize : sequenceSize? (UInt8.ofNat n) = some 1 := by
    rw [sequenceSize?_eq, hbyte, if_pos (by omega)]
  rw [decodeUtf8From.eq_def]
  simp only [hsize, hbyte]

theorem decodeUtf8From_two (h : 0x7f < n) (h' : n ≤ 0x7ff) :
    decodeUtf8From position
        (UInt8.ofNat (n / 64 % 32 + 192) ::
          UInt8.ofNat (n % 64 + 128) :: rest) =
      (decodeUtf8From (position + 2) rest).map (Char.ofNat n :: ·) := by
  have hbyte : (UInt8.ofNat (n / 64 % 32 + 192)).toNat = n / 64 + 192 :=
    (toNat_ofNat_of_lt (by omega)).trans (by omega)
  have hsize : sequenceSize? (UInt8.ofNat (n / 64 % 32 + 192)) = some 2 := by
    rw [sequenceSize?_eq, hbyte, if_neg (by omega), if_neg (by omega),
      if_pos (by omega)]
  have hsecond : mayFollow (UInt8.ofNat (n / 64 % 32 + 192))
      (UInt8.ofNat (n % 64 + 128)) = true := by
    rw [mayFollow_iff, hbyte, toNat_continuation]
    omega
  have hbits : (n / 64 + 192) % 32 * 64 + n % 64 = n := by omega
  rw [decodeUtf8From.eq_def]
  simp only [hsize, hsecond, hbyte, payload_ofNat, hbits, Bool.not_true,
    Bool.false_eq_true, if_false]

/-- A sequence of three is no overlong form and holds no surrogate. -/
theorem decodeUtf8From_three (h : 0x7ff < n) (h' : n ≤ 0xffff)
    (hvalid : n < 0xd800 ∨ 0xdfff < n) :
    decodeUtf8From position
        (UInt8.ofNat (n / 4096 % 16 + 224) ::
          UInt8.ofNat (n / 64 % 64 + 128) ::
          UInt8.ofNat (n % 64 + 128) :: rest) =
      (decodeUtf8From (position + 3) rest).map (Char.ofNat n :: ·) := by
  have hbyte : (UInt8.ofNat (n / 4096 % 16 + 224)).toNat = n / 4096 + 224 :=
    (toNat_ofNat_of_lt (by omega)).trans (by omega)
  have hsize : sequenceSize? (UInt8.ofNat (n / 4096 % 16 + 224)) =
      some 3 := by
    rw [sequenceSize?_eq, hbyte, if_neg (by omega), if_neg (by omega),
      if_neg (by omega), if_pos (by omega)]
  have hsecond : mayFollow (UInt8.ofNat (n / 4096 % 16 + 224))
      (UInt8.ofNat (n / 64 % 64 + 128)) = true := by
    rw [mayFollow_iff, hbyte, toNat_continuation]
    omega
  have hbits : (n / 4096 + 224) % 16 * 4096 + n / 64 % 64 * 64 + n % 64 =
      n := by omega
  rw [decodeUtf8From.eq_def]
  simp only [hsize, hsecond, isContinuation_ofNat, hbyte, payload_ofNat,
    hbits, Bool.not_true, Bool.false_eq_true, if_false]

/-- A sequence of four is no overlong form and holds a code point. -/
theorem decodeUtf8From_four (h : 0xffff < n) (hvalid : n < 0x110000) :
    decodeUtf8From position
        (UInt8.ofNat (n / 262144 % 8 + 240) ::
          UInt8.ofNat (n / 4096 % 64 + 128) ::
          UInt8.ofNat (n / 64 % 64 + 128) ::
          UInt8.ofNat (n % 64 + 128) :: rest) =
      (decodeUtf8From (position + 4) rest).map (Char.ofNat n :: ·) := by
  have hbyte : (UInt8.ofNat (n / 262144 % 8 + 240)).toNat =
      n / 262144 + 240 :=
    (toNat_ofNat_of_lt (by omega)).trans (by omega)
  have hsize : sequenceSize? (UInt8.ofNat (n / 262144 % 8 + 240)) =
      some 4 := by
    rw [sequenceSize?_eq, hbyte, if_neg (by omega), if_neg (by omega),
      if_neg (by omega), if_neg (by omega), if_pos (by omega)]
  have hsecond : mayFollow (UInt8.ofNat (n / 262144 % 8 + 240))
      (UInt8.ofNat (n / 4096 % 64 + 128)) = true := by
    rw [mayFollow_iff, hbyte, toNat_continuation]
    omega
  have hbits : (n / 262144 + 240) % 8 * 262144 + n / 4096 % 64 * 4096 +
      n / 64 % 64 * 64 + n % 64 = n := by omega
  rw [decodeUtf8From.eq_def]
  simp only [hsize, hsecond, isContinuation_ofNat, hbyte, payload_ofNat,
    hbits, Bool.not_true, Bool.false_eq_true, if_false]

end Sequences

/-- The bytes of a character, by the length of their sequence. -/
theorem utf8EncodeChar_eq (c : Char) :
    String.utf8EncodeChar c =
      if c.toNat ≤ 0x7f then [UInt8.ofNat c.toNat]
      else if c.toNat ≤ 0x7ff then
        [UInt8.ofNat (c.toNat / 64 % 32 + 192),
          UInt8.ofNat (c.toNat % 64 + 128)]
      else if c.toNat ≤ 0xffff then
        [UInt8.ofNat (c.toNat / 4096 % 16 + 224),
          UInt8.ofNat (c.toNat / 64 % 64 + 128),
          UInt8.ofNat (c.toNat % 64 + 128)]
      else
        [UInt8.ofNat (c.toNat / 262144 % 8 + 240),
          UInt8.ofNat (c.toNat / 4096 % 64 + 128),
          UInt8.ofNat (c.toNat / 64 % 64 + 128),
          UInt8.ofNat (c.toNat % 64 + 128)] :=
  rfl

/-- The decoder takes the bytes of one character off. -/
theorem decodeUtf8From_char (position : Nat) (c : Char)
    (rest : List UInt8) :
    ∃ later, decodeUtf8From position (String.utf8EncodeChar c ++ rest) =
      (decodeUtf8From later rest).map (c :: ·) := by
  have hvalid : c.toNat < 0xd800 ∨ (0xdfff < c.toNat ∧ c.toNat < 0x110000) :=
    c.valid
  have hchar : Char.ofNat c.toNat = c := Char.ofNat_toNat c
  rw [utf8EncodeChar_eq]
  generalize c.toNat = n at hvalid hchar
  subst hchar
  split
  · rename_i h
    exact ⟨_, decodeUtf8From_one position rest h⟩
  split
  · rename_i h h'
    exact ⟨_, decodeUtf8From_two position rest (Nat.not_le.mp h) h'⟩
  split
  · rename_i h h'
    exact ⟨_, decodeUtf8From_three position rest (Nat.not_le.mp h) h'
      (hvalid.imp_right And.left)⟩
  · rename_i h
    exact ⟨_, decodeUtf8From_four position rest (Nat.not_le.mp h)
      (by omega)⟩

/-- Decoding reads back what was encoded. -/
theorem decodeUtf8_encodeUtf8 (s : String) :
    decodeUtf8 (encodeUtf8 s) = .ok s.toList := by
  have hchars : ∀ (cs : List Char) (position : Nat),
      decodeUtf8From position (cs.flatMap String.utf8EncodeChar) =
        .ok cs := by
    intro cs
    induction cs with
    | nil =>
        intro position
        rfl
    | cons c rest ih =>
        intro position
        obtain ⟨later, hlater⟩ := decodeUtf8From_char position c
          (rest.flatMap String.utf8EncodeChar)
        rw [List.flatMap_cons, hlater, ih]
        rfl
  rw [encodeUtf8_eq]
  exact hchars s.toList 0

/-! ## Sequences that are read -/

/-- A byte is told by its number. -/
theorem ofNat_eq_of_toNat {n : Nat} {b : UInt8} (h : n = b.toNat) :
    UInt8.ofNat n = b := by
  rw [h, UInt8.ofNat_toNat]

/-- The character of a code point that is no surrogate. -/
theorem toNat_charOfNat {n : Nat}
    (h : n < 0xd800 ∨ (0xdfff < n ∧ n < 0x110000)) :
    (Char.ofNat n).toNat = n := by
  rw [Char.ofNat, dif_pos h]
  rfl

section Read

variable {a b c d : UInt8}

theorem encode_one (ha : a.toNat < 0x80) :
    String.utf8EncodeChar (Char.ofNat a.toNat) = [a] := by
  rw [utf8EncodeChar_eq, toNat_charOfNat (.inl (by omega)),
    if_pos (by omega), UInt8.ofNat_toNat]

theorem encode_two (ha : 0xc2 ≤ a.toNat) (ha' : a.toNat < 0xe0)
    (hb : mayFollow a b = true) :
    String.utf8EncodeChar (Char.ofNat (a.toNat % 32 * 64 + payload b)) =
      [a, b] := by
  rw [mayFollow_iff] at hb
  rw [payload, utf8EncodeChar_eq, toNat_charOfNat (.inl (by omega)),
    if_neg (by omega), if_pos (by omega),
    ofNat_eq_of_toNat (b := a) (by omega),
    ofNat_eq_of_toNat (b := b) (by omega)]

theorem encode_three (ha : 0xe0 ≤ a.toNat) (ha' : a.toNat < 0xf0)
    (hb : mayFollow a b = true) (hc : isContinuation c = true) :
    String.utf8EncodeChar (Char.ofNat
      (a.toNat % 16 * 4096 + payload b * 64 + payload c)) = [a, b, c] := by
  rw [mayFollow_iff] at hb
  rw [isContinuation_iff] at hc
  rw [payload, payload, utf8EncodeChar_eq, toNat_charOfNat (by omega),
    if_neg (by omega), if_neg (by omega), if_pos (by omega),
    ofNat_eq_of_toNat (b := a) (by omega),
    ofNat_eq_of_toNat (b := b) (by omega),
    ofNat_eq_of_toNat (b := c) (by omega)]

theorem encode_four (ha : 0xf0 ≤ a.toNat) (ha' : a.toNat < 0xf5)
    (hb : mayFollow a b = true) (hc : isContinuation c = true)
    (hd : isContinuation d = true) :
    String.utf8EncodeChar (Char.ofNat (a.toNat % 8 * 262144 +
      payload b * 4096 + payload c * 64 + payload d)) = [a, b, c, d] := by
  rw [mayFollow_iff] at hb
  rw [isContinuation_iff] at hc hd
  rw [payload, payload, payload, utf8EncodeChar_eq,
    toNat_charOfNat (by omega), if_neg (by omega), if_neg (by omega),
    if_neg (by omega), ofNat_eq_of_toNat (b := a) (by omega),
    ofNat_eq_of_toNat (b := b) (by omega),
    ofNat_eq_of_toNat (b := c) (by omega),
    ofNat_eq_of_toNat (b := d) (by omega)]

end Read

/-- How many bytes the first byte of a sequence asks for. -/
theorem of_sequenceSize? {a : UInt8} {size : Nat}
    (h : sequenceSize? a = some size) :
    (size = 1 ∧ a.toNat < 0x80) ∨
    (size = 2 ∧ 0xc2 ≤ a.toNat ∧ a.toNat < 0xe0) ∨
    (size = 3 ∧ 0xe0 ≤ a.toNat ∧ a.toNat < 0xf0) ∨
    (size = 4 ∧ 0xf0 ≤ a.toNat ∧ a.toNat < 0xf5) := by
  rw [sequenceSize?_eq] at h
  grind

/-- Characters that were read one after the other. -/
theorem of_map_cons {r : Except Utf8Error (List Char)} {c : Char}
    {cs : List Char} (h : r.map (c :: ·) = .ok cs) :
    ∃ more, r = .ok more ∧ cs = c :: more := by
  cases r with
  | error e => cases h
  | ok more =>
      cases h
      exact ⟨more, rfl, rfl⟩

/-- What was read passed the test before it. -/
theorem of_unless {test : Bool} {e : Utf8Error}
    {r : Except Utf8Error (List Char)} {cs : List Char}
    (h : (if (!test) = true then .error e else r) = .ok cs) :
    test = true ∧ r = .ok cs := by
  cases test with
  | false => cases h
  | true => exact ⟨rfl, h⟩

/-- What is read of bytes is a character, whose bytes come first, and what
    is read of the other bytes. -/
theorem of_decodeUtf8From {position : Nat} {a : UInt8} {rest : List UInt8}
    {cs : List Char} (h : decodeUtf8From position (a :: rest) = .ok cs) :
    ∃ c later kept more, a :: rest = String.utf8EncodeChar c ++ kept ∧
      decodeUtf8From later kept = .ok more ∧ cs = c :: more := by
  rw [decodeUtf8From.eq_def] at h
  dsimp only at h
  split at h
  · cases h
  -- one byte
  · rename_i hsize
    have ha := of_sequenceSize? hsize
    obtain ⟨more, hmore, rfl⟩ := of_map_cons h
    refine ⟨_, _, rest, more, ?_, hmore, rfl⟩
    rw [encode_one (by omega)]
    rfl
  -- two bytes
  · rename_i hsize
    have ha := of_sequenceSize? hsize
    match rest, h with
    | b :: rest, h =>
        obtain ⟨hb, h⟩ := of_unless h
        obtain ⟨more, hmore, rfl⟩ := of_map_cons h
        refine ⟨_, _, rest, more, ?_, hmore, rfl⟩
        rw [encode_two (by omega) (by omega) hb]
        rfl
  -- three bytes
  · rename_i hsize
    have ha := of_sequenceSize? hsize
    match rest, h with
    | b :: rest, h =>
        obtain ⟨hb, h⟩ := of_unless h
        match rest, h with
        | c :: rest, h =>
            obtain ⟨hc, h⟩ := of_unless h
            obtain ⟨more, hmore, rfl⟩ := of_map_cons h
            refine ⟨_, _, rest, more, ?_, hmore, rfl⟩
            rw [encode_three (by omega) (by omega) hb hc]
            rfl
  -- four bytes, for there is no other size
  · rename_i size hone htwo hthree hsize
    have ha : 0xf0 ≤ a.toNat ∧ a.toNat < 0xf5 := by
      rcases of_sequenceSize? hsize with h | h | h | h
      · exact (hone h.1).elim
      · exact (htwo h.1).elim
      · exact (hthree h.1).elim
      · exact h.2
    match rest, h with
    | b :: rest, h =>
        obtain ⟨hb, h⟩ := of_unless h
        match rest, h with
        | c :: rest, h =>
            obtain ⟨hc, h⟩ := of_unless h
            match rest, h with
            | d :: rest, h =>
                obtain ⟨hd, h⟩ := of_unless h
                obtain ⟨more, hmore, rfl⟩ := of_map_cons h
                refine ⟨_, _, rest, more, ?_, hmore, rfl⟩
                rw [encode_four ha.1 ha.2 hb hc hd]
                rfl

/-- Bytes that are read are those of what is read. -/
theorem decodeUtf8From_bytes {position : Nat} {bytes : List UInt8}
    {cs : List Char} (h : decodeUtf8From position bytes = .ok cs) :
    bytes = cs.flatMap String.utf8EncodeChar := by
  match bytes with
  | [] =>
      cases h
      rfl
  | a :: rest =>
      obtain ⟨c, later, kept, more, hbytes, hmore, rfl⟩ :=
        of_decodeUtf8From h
      rw [hbytes, List.flatMap_cons, ← decodeUtf8From_bytes hmore]
termination_by bytes.length
decreasing_by
  rw [hbytes, List.length_append]
  have := String.length_utf8EncodeChar c
  have := c.utf8Size_pos
  omega

/-- Exactly the bytes of texts are read. -/
theorem decodeUtf8_ok_iff (bytes : List UInt8) (text : String) :
    decodeUtf8 bytes = .ok text.toList ↔ bytes = encodeUtf8 text := by
  constructor
  · intro h
    rw [encodeUtf8_eq]
    exact decodeUtf8From_bytes h
  · rintro rfl
    exact decodeUtf8_encodeUtf8 text

end LineShell.Text
