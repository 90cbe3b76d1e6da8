import Mathlib.Tactic.Lemma
import Conform.Text.Utf8

/-!
Reading UTF-8 that was written. The bytes of a character are a first byte and up to three that go
on, each with six bits; the bounds of the second byte that the first one asks for are kept, since no
character is written in more bytes than it takes, and none is a surrogate.
-/

namespace Conform.Text.Utf8

variable {b v x low high more bits fitted start : Nat} {c : Char} {cs : List Char} {r : List UInt8}

lemma follow_ofNat (hl : low ≤ x) (hh : x ≤ high) (hx : x < 256) :
    follow (more + 1) bits low high fitted (UInt8.ofNat x :: r) =
      follow more (bits * 0x40 + (x - 0x80)) 0x80 0xbf (fitted + 1) r := by
  rw [follow, UInt8.toNat_ofNat', Nat.mod_eq_of_lt hx]
  exact if_pos (by simp [hl, hh])

lemma lead?_one (h : b < 0x80) : lead? b = some { more := 0, bits := b } := if_pos h

lemma lead?_two (hl : 0xc2 ≤ b) (hh : b < 0xe0) :
    lead? b = some { more := 1, bits := b - 0xc0 } := by
  rw [lead?, if_neg (by omega), if_neg (by omega), if_pos hh]

/-- The first of three bytes, and which second bytes it asks for. -/
lemma lead?_three (hl : 0xe0 ≤ b) (hh : b < 0xf0) :
    ∃ low high, lead? b = some { more := 2, bits := b - 0xe0, low, high } ∧
      ∀ x, 0x80 ≤ x → x ≤ 0xbf → (b = 0xe0 → 0xa0 ≤ x) → (b = 0xed → x ≤ 0x9f) →
        low ≤ x ∧ x ≤ high := by
  rw [lead?, if_neg (by omega), if_neg (by omega), if_neg (by omega)]
  by_cases h0 : b = 0xe0
  · subst h0
    exact ⟨0xa0, 0xbf, rfl, fun x _ hx h _ => ⟨h rfl, hx⟩⟩
  by_cases hd : b = 0xed
  · subst hd
    exact ⟨0x80, 0x9f, rfl, fun x hx _ _ h => ⟨hx, h rfl⟩⟩
  rw [if_neg h0, if_neg hd, if_pos hh]
  exact ⟨0x80, 0xbf, rfl, fun x hx hx' _ _ => ⟨hx, hx'⟩⟩

/-- The first of four bytes, and which second bytes it asks for. -/
lemma lead?_four (hl : 0xf0 ≤ b) (hh : b < 0xf5) :
    ∃ low high, lead? b = some { more := 3, bits := b - 0xf0, low, high } ∧
      ∀ x, 0x80 ≤ x → x ≤ 0xbf → (b = 0xf0 → 0x90 ≤ x) → (b = 0xf4 → x ≤ 0x8f) →
        low ≤ x ∧ x ≤ high := by
  rw [lead?, if_neg (by omega), if_neg (by omega), if_neg (by omega), if_neg (by omega),
    if_neg (by omega), if_neg (by omega)]
  by_cases h0 : b = 0xf0
  · subst h0
    exact ⟨0x90, 0xbf, rfl, fun x _ hx h _ => ⟨h rfl, hx⟩⟩
  rw [if_neg h0]
  by_cases h4 : b = 0xf4
  · subst h4
    exact ⟨0x80, 0x8f, rfl, fun x hx _ _ h => ⟨hx, h rfl⟩⟩
  rw [if_pos (by omega)]
  exact ⟨0x80, 0xbf, rfl, fun x hx hx' _ _ => ⟨hx, hx'⟩⟩

lemma next_one (h : v ≤ 0x7f) : next start (UInt8.ofNat v) r = .ok (Char.ofNat v, r) := by
  rw [next, UInt8.toNat_ofNat', Nat.mod_eq_of_lt (by omega), lead?_one (by omega)]
  simp only [follow]

lemma next_two (hl : 0x7f < v) (hh : v ≤ 0x7ff) :
    next start (UInt8.ofNat (v / 64 % 32 + 192)) (UInt8.ofNat (v % 64 + 128) :: r) =
      .ok (Char.ofNat v, r) := by
  have hbits : (v / 64 % 32 + 192 - 0xc0) * 0x40 + (v % 64 + 128 - 0x80) = v := by omega
  rw [next, UInt8.toNat_ofNat', Nat.mod_eq_of_lt (by omega), lead?_two (by omega) (by omega)]
  simp only
  rw [follow_ofNat (by omega) (by omega) (by omega), hbits]
  simp only [follow]

lemma next_three (hl : 0x7ff < v) (hh : v ≤ 0xffff) (hs : v < 0xd800 ∨ 0xe000 ≤ v) :
    next start (UInt8.ofNat (v / 4096 % 16 + 224))
        (UInt8.ofNat (v / 64 % 64 + 128) :: UInt8.ofNat (v % 64 + 128) :: r) =
      .ok (Char.ofNat v, r) := by
  obtain ⟨low, high, hlead, hsecond⟩ :=
    lead?_three (b := v / 4096 % 16 + 224) (by omega) (by omega)
  -- the first byte is 0xe0 only from U+0800 on, and 0xed only up to the surrogates
  obtain ⟨hlow, hhigh⟩ :=
    hsecond (v / 64 % 64 + 128) (by omega) (by omega) (by omega) (by omega)
  have hbits : ((v / 4096 % 16 + 224 - 0xe0) * 0x40 + (v / 64 % 64 + 128 - 0x80)) * 0x40 +
      (v % 64 + 128 - 0x80) = v := by omega
  rw [next, UInt8.toNat_ofNat', Nat.mod_eq_of_lt (by omega), hlead]
  simp only
  rw [follow_ofNat hlow hhigh (by omega), follow_ofNat (by omega) (by omega) (by omega), hbits]
  simp only [follow]

lemma next_four (hl : 0xffff < v) (hh : v < 0x110000) :
    next start (UInt8.ofNat (v / 262144 % 8 + 240))
        (UInt8.ofNat (v / 4096 % 64 + 128) :: UInt8.ofNat (v / 64 % 64 + 128) ::
          UInt8.ofNat (v % 64 + 128) :: r) =
      .ok (Char.ofNat v, r) := by
  obtain ⟨low, high, hlead, hsecond⟩ :=
    lead?_four (b := v / 262144 % 8 + 240) (by omega) (by omega)
  -- the first byte is 0xf0 only from U+10000 on, and 0xf4 only up to the last code point
  obtain ⟨hlow, hhigh⟩ :=
    hsecond (v / 4096 % 64 + 128) (by omega) (by omega) (by omega) (by omega)
  have hbits : (((v / 262144 % 8 + 240 - 0xf0) * 0x40 + (v / 4096 % 64 + 128 - 0x80)) * 0x40 +
      (v / 64 % 64 + 128 - 0x80)) * 0x40 + (v % 64 + 128 - 0x80) = v := by omega
  rw [next, UInt8.toNat_ofNat', Nat.mod_eq_of_lt (by omega), hlead]
  simp only
  rw [follow_ofNat hlow hhigh (by omega), follow_ofNat (by omega) (by omega) (by omega),
    follow_ofNat (by omega) (by omega) (by omega), hbits]
  simp only [follow]

/-- The bytes of a character are read as the character. -/
lemma exists_next_utf8EncodeChar (start : Nat) (c : Char) (r : List UInt8) :
    ∃ b bs, String.utf8EncodeChar c = b :: bs ∧ next start b (bs ++ r) = .ok (c, r) := by
  have hvalid : c.val.toNat < 0xd800 ∨ 0xdfff < c.val.toNat ∧ c.val.toNat < 0x110000 := c.valid
  have hchar : Char.ofNat c.val.toNat = c := Char.ofNat_toNat c
  generalize hv : c.val.toNat = v at hvalid hchar
  rw [String.utf8EncodeChar, hv]
  by_cases h1 : v ≤ 0x7f
  · refine ⟨_, _, if_pos h1, ?_⟩
    rw [← hchar]
    exact next_one h1
  by_cases h2 : v ≤ 0x7ff
  · refine ⟨_, _, (if_neg h1).trans (if_pos h2), ?_⟩
    rw [← hchar]
    exact next_two (by omega) h2
  by_cases h3 : v ≤ 0xffff
  · refine ⟨_, _, (if_neg h1).trans ((if_neg h2).trans (if_pos h3)), ?_⟩
    rw [← hchar]
    exact next_three (by omega) h3 (by omega)
  · refine ⟨_, _, (if_neg h1).trans ((if_neg h2).trans (if_neg h3)), ?_⟩
    rw [← hchar]
    exact next_four (by omega) (by omega)

lemma decodeFrom_cons_of_next {b : UInt8} {bs : List UInt8}
    (h : next start b bs = .ok (c, r)) :
    decodeFrom start (b :: bs) = (decodeFrom (start + c.utf8Size) r).map (c :: ·) := by
  rw [decodeFrom]
  split
  · next e he =>
    rw [h] at he
    cases he
  · next he =>
    rw [h] at he
    cases he
    cases decodeFrom (start + c.utf8Size) r <;> rfl

lemma decodeFrom_encode (start : Nat) (cs : List Char) : decodeFrom start (encode cs) = .ok cs := by
  induction cs generalizing start with
  | nil => rw [encode, List.flatMap_nil, decodeFrom]
  | cons c cs ih =>
    obtain ⟨b, bs, hbytes, hnext⟩ := exists_next_utf8EncodeChar start c (encode cs)
    have hcons : encode (c :: cs) = b :: (bs ++ encode cs) := by
      rw [encode, List.flatMap_cons, hbytes]
      rfl
    rw [hcons, decodeFrom_cons_of_next hnext, ih]
    rfl

theorem decode_encode (cs : List Char) : decode (encode cs) = .ok cs := decodeFrom_encode 0 cs

lemma encode_toList (t : String) : encode t.toList = t.toUTF8.data.toList := by
  rw [String.toUTF8_eq_toByteArray, ← String.utf8Encode_toList, List.utf8Encode,
    List.data_toByteArray]
  rfl

/-- The bytes of the byte-order mark, U+FEFF. -/
def mark : List UInt8 := [0xef, 0xbb, 0xbf]

lemma withoutMark_mark (bs : List UInt8) : withoutMark (mark ++ bs) = bs := rfl

/-- Bytes that begin with the mark are those of a text that begins with U+FEFF. -/
lemma head?_of_encode_eq {bs : List UInt8} (h : encode cs = mark ++ bs) :
    cs.head? = some '\ufeff' := by
  have hnext : next 0 0xef (0xbb :: 0xbf :: bs) = .ok ('\ufeff', bs) := rfl
  have hread := decode_encode cs
  rw [h] at hread
  replace hread := (decodeFrom_cons_of_next hnext).symm.trans hread
  cases hd : decodeFrom (0 + '\ufeff'.utf8Size) bs with
  | error e =>
    rw [hd] at hread
    cases hread
  | ok ds =>
    rw [hd] at hread
    cases hread
    rfl

lemma withoutMark_encode (h : cs.head? ≠ some '\ufeff') : withoutMark (encode cs) = encode cs := by
  unfold withoutMark
  split
  · next bs hbs => exact absurd (head?_of_encode_eq hbs) h
  · rfl

end Conform.Text.Utf8
