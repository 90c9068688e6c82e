import RouteMigration.Exchange.Client
import RouteMigration.Proofs.Text.Utf8

/-! Base64 loses nothing: what is shown as signs can be told from everything else that is. So the
header that proves who is asking tells the passwords of an account apart. -/

namespace RouteMigration

namespace Base64

/-- There is one sign for six bits, and padding is none of them. -/
theorem alphabet_signs : alphabet.length = 64 ∧ alphabet.Nodup ∧ '=' ∉ alphabet := by
  decide +kernel

theorem sign_eq_getElem (n : Nat) : ∃ h : n % 64 < alphabet.length, sign n = alphabet[n % 64] := by
  have h : n % 64 < alphabet.length := by
    rw [alphabet_signs.1]
    exact Nat.mod_lt n (by decide)
  exact ⟨h, by rw [sign, List.getD_eq_getElem?_getD, List.getElem?_eq_getElem h, Option.getD_some]⟩

theorem sign_inj {m n : Nat} (h : sign m = sign n) : m % 64 = n % 64 := by
  obtain ⟨hm, hsign⟩ := sign_eq_getElem m
  obtain ⟨hn, hsign'⟩ := sign_eq_getElem n
  exact (List.getElem_inj alphabet_signs.2.1).mp (hsign.symm.trans (h.trans hsign'))

theorem sign_ne_padding (n : Nat) : sign n ≠ '=' := by
  obtain ⟨h, hsign⟩ := sign_eq_getElem n
  intro heq
  exact alphabet_signs.2.2 (heq ▸ hsign ▸ List.getElem_mem h)

theorem padding_ne_sign (n : Nat) : '=' ≠ sign n := (sign_ne_padding n).symm

section
variable {a b c x y z : UInt8}

/-- Two signs hold an octet. -/
theorem one_inj (h₁ : sign (a.toNat / 4) = sign (x.toNat / 4))
    (h₂ : sign (a.toNat * 16) = sign (x.toNat * 16)) : a = x := by
  have ha := a.toNat_lt
  have hx := x.toNat_lt
  have h₁ := sign_inj h₁
  have h₂ := sign_inj h₂
  exact UInt8.toNat_inj.mp (by omega)

/-- Three signs hold two. -/
theorem two_inj (h₁ : sign (a.toNat / 4) = sign (x.toNat / 4))
    (h₂ : sign (a.toNat * 16 + b.toNat / 16) = sign (x.toNat * 16 + y.toNat / 16))
    (h₃ : sign (b.toNat * 4) = sign (y.toNat * 4)) : a = x ∧ b = y := by
  have ha := a.toNat_lt
  have hx := x.toNat_lt
  have hb := b.toNat_lt
  have hy := y.toNat_lt
  have h₁ := sign_inj h₁
  have h₂ := sign_inj h₂
  have h₃ := sign_inj h₃
  exact ⟨UInt8.toNat_inj.mp (by omega), UInt8.toNat_inj.mp (by omega)⟩

/-- Four signs hold three. -/
theorem three_inj (h₁ : sign (a.toNat / 4) = sign (x.toNat / 4))
    (h₂ : sign (a.toNat * 16 + b.toNat / 16) = sign (x.toNat * 16 + y.toNat / 16))
    (h₃ : sign (b.toNat * 4 + c.toNat / 64) = sign (y.toNat * 4 + z.toNat / 64))
    (h₄ : sign c.toNat = sign z.toNat) : a = x ∧ b = y ∧ c = z := by
  have ha := a.toNat_lt
  have hx := x.toNat_lt
  have hb := b.toNat_lt
  have hy := y.toNat_lt
  have hc := c.toNat_lt
  have hz := z.toNat_lt
  have h₁ := sign_inj h₁
  have h₂ := sign_inj h₂
  have h₃ := sign_inj h₃
  have h₄ := sign_inj h₄
  exact ⟨UInt8.toNat_inj.mp (by omega), UInt8.toNat_inj.mp (by omega), UInt8.toNat_inj.mp (by omega)⟩

end

theorem encode_inj : ∀ {s t : List UInt8}, encode s = encode t → s = t
  | [], [], _ => rfl
  | [a], [x], h => by
    simp only [encode, List.cons.injEq, and_true] at h
    rw [one_inj h.1 h.2]
  | [a, b], [x, y], h => by
    simp only [encode, List.cons.injEq, and_true] at h
    obtain ⟨rfl, rfl⟩ := two_inj h.1 h.2.1 h.2.2
    rfl
  | a :: b :: c :: s, x :: y :: z :: t, h => by
    simp only [encode, List.cons.injEq] at h
    obtain ⟨h₁, h₂, h₃, h₄, hrest⟩ := h
    obtain ⟨rfl, rfl, rfl⟩ := three_inj h₁ h₂ h₃ h₄
    rw [encode_inj hrest]
  -- what is missing of the last three octets shows
  | [], [_], h | [], [_, _], h | [], _ :: _ :: _ :: _, h
  | [_], [], h | [_, _], [], h | _ :: _ :: _ :: _, [], h => by simp [encode] at h
  | [_], [_, _], h | [_], _ :: _ :: _ :: _, h | [_, _], [_], h | [_, _], _ :: _ :: _ :: _, h
  | _ :: _ :: _ :: _, [_], h | _ :: _ :: _ :: _, [_, _], h => by
    simp [encode, sign_ne_padding, padding_ne_sign] at h

end Base64

theorem Text.Utf8.encode_inj {s t : List Char} (h : Text.Utf8.encode s = Text.Utf8.encode t) :
    s = t := by
  rw [← Text.Utf8.decode_encode s, h, Text.Utf8.decode_encode]

/-- Of one account, equal headers come of equal passwords. -/
theorem Credentials.authorization_inj {username p q : String}
    (h : authorization ⟨username, p⟩ = authorization ⟨username, q⟩) : p = q := by
  have hsigns : Base64.encode (Text.Utf8.encode (username ++ ":" ++ p).toList) =
      Base64.encode (Text.Utf8.encode (username ++ ":" ++ q).toList) := by
    rw [authorization, authorization] at h
    exact String.ofList_inj.mp (String.append_right_inj _ |>.mp h)
  have htexts := Text.Utf8.encode_inj (Base64.encode_inj hsigns)
  exact (String.append_right_inj _).mp (String.toList_inj.mp htexts)

end RouteMigration
