import Mathlib.Data.List.Basic
import Mathlib.Tactic.SplitIfs

namespace EntityLink.Text

/-- The texts are in the order of their UTF-8 bytes. -/
def BytesBefore (s t : String) : Prop :=
  s.toUTF8.data.toList < t.toUTF8.data.toList

/-- Whatever follows them, the first bytes come before the second. -/
def Precedes (as bs : List UInt8) : Prop :=
  ∀ xs ys, as ++ xs < bs ++ ys

section Bytes

variable {m n : Nat} {as bs : List UInt8}

theorem ofNat_lt (h : m < n) (hn : n < 256) : UInt8.ofNat m < UInt8.ofNat n := by
  rw [UInt8.lt_iff_toNat_lt,UInt8.toNat_ofNat',UInt8.toNat_ofNat']
  omega

theorem precedes_cons (h : m < n) (hn : n < 256) (as bs : List UInt8) :
    Precedes (UInt8.ofNat m :: as) (UInt8.ofNat n :: bs) :=
  fun _ _ => List.cons_lt_cons_iff.mpr (.inl (ofNat_lt h hn))

/-- The last byte holds the lowest six bits, so it counts only where all others agree. -/
theorem precedes_append (h : m < n) (hlead : m / 64 < n / 64 → Precedes as bs)
    (hsame : m / 64 = n / 64 → as = bs) :
    Precedes (as ++ [UInt8.ofNat (m % 64 + 128)]) (bs ++ [UInt8.ofNat (n % 64 + 128)]) := by
  intro xs ys
  rw [List.append_assoc,List.append_assoc]
  rcases Nat.lt_or_ge (m / 64) (n / 64) with hlt | hge
  · exact hlead hlt _ _
  · have heq : m / 64 = n / 64 := by omega
    rw [hsame heq]
    apply List.append_left_lt
    exact precedes_cons (by omega) (by omega) [] [] xs ys

/-- A smaller code point has smaller bytes, whatever their number. -/
theorem precedes_utf8EncodeChar {c d : Char} (h : c < d) :
    Precedes (String.utf8EncodeChar c) (String.utf8EncodeChar d) := by
  have hlt : c.val.toNat < d.val.toNat := h
  have hvalid : d.val.toNat < 0x110000 := by
    have hvalid := d.valid
    simp only [UInt32.isValidChar,Nat.isValidChar] at hvalid
    omega
  have hsixths : ∀ k : Nat, k / 4096 = k / 64 / 64 ∧ k / 262144 = k / 64 / 64 / 64 :=
    fun k => by simp only [Nat.div_div_eq_div_mul,and_self]
  simp only [String.utf8EncodeChar,hsixths]
  generalize c.val.toNat = m at hlt ⊢
  generalize d.val.toNat = n at hlt hvalid ⊢
  split_ifs
  -- where the first bytes differ they tell; where they may agree there are as many bytes
  all_goals try exact precedes_cons (by omega) (by omega) _ _
  · exact precedes_append hlt (fun _ => precedes_cons (by omega) (by omega) [] [])
      (fun heq => by rw [heq])
  · show Precedes ([_] ++ [_] ++ [_]) ([_] ++ [_] ++ [_])
    refine precedes_append hlt (fun hlt => precedes_append hlt (fun _ => ?_) ?_) ?_
    · exact precedes_cons (by omega) (by omega) [] []
    · exact fun heq => by rw [heq]
    · exact fun heq => by rw [heq]
  · show Precedes ([_] ++ [_] ++ [_] ++ [_]) ([_] ++ [_] ++ [_] ++ [_])
    refine precedes_append hlt (fun hlt => precedes_append hlt (fun hlt => precedes_append hlt
      (fun _ => ?_) ?_) ?_) ?_
    · exact precedes_cons (by omega) (by omega) [] []
    · exact fun heq => by rw [heq]
    · exact fun heq => by rw [heq]
    · exact fun heq => by rw [heq]

end Bytes

theorem flatMap_utf8EncodeChar_lt {cs ds : List Char} (h : cs < ds) :
    cs.flatMap String.utf8EncodeChar < ds.flatMap String.utf8EncodeChar := by
  have hlex : List.Lex (· < ·) cs ds := h
  induction hlex with
  | @nil d ds =>
    obtain ⟨b,bs,hd⟩ := List.exists_cons_of_ne_nil (@String.utf8EncodeChar_ne_nil d)
    rw [List.flatMap_nil,List.flatMap_cons,hd]
    exact .nil
  | @cons c cs ds hlex ih =>
    rw [List.flatMap_cons,List.flatMap_cons]
    exact List.append_left_lt (ih hlex)
  | rel hlt =>
    rw [List.flatMap_cons,List.flatMap_cons]
    exact precedes_utf8EncodeChar hlt _ _

/-- The order of code points is that of bytes. -/
theorem bytesBefore_of_lt {s t : String} (h : s < t) : BytesBefore s t := by
  have hbytes : ∀ s : String, s.toUTF8.data.toList = s.toList.flatMap String.utf8EncodeChar := by
    intro s
    conv => lhs; rw [← String.ofList_toList (s := s)]
    rw [String.toUTF8_eq_toByteArray,String.toByteArray_ofList]
    exact List.toList_data_toByteArray
  rw [BytesBefore,hbytes,hbytes]
  exact flatMap_utf8EncodeChar_lt (String.lt_iff.mp h)

end EntityLink.Text
