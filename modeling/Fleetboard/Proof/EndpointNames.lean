import Fleetboard.Model.Ipvs
import Fleetboard.Proof.Net

/-!
# The texts of destinations and the names of terminating ones

* `parseEndpoint_string`: the text of a destination is read as that destination;
* `dest_string_injective`, `uniqueRSName_injective`: different destinations have different
  texts, and different pairs of a virtual server and a destination different names.
-/

namespace Fleetboard.Ipvs

open Fleetboard.Proxy Fleetboard.Net

/-! ## Lists around a separator -/

/-- What stands before and after the first occurrence of a separator. -/
theorem append_cons_inj_first {α : Type*} {z : α} {a b c d : List α} (ha : z ∉ a) (hc : z ∉ c)
    (h : a ++ z :: b = c ++ z :: d) : a = c ∧ b = d := by
  induction a generalizing c with
  | nil =>
    cases c with
    | nil => exact ⟨rfl, (List.cons.inj h).2⟩
    | cons y c =>
      obtain ⟨rfl, -⟩ := List.cons.inj h
      exact absurd List.mem_cons_self hc
  | cons x a ih =>
    cases c with
    | nil =>
      obtain ⟨rfl, -⟩ := List.cons.inj h
      exact absurd List.mem_cons_self ha
    | cons y c =>
      obtain ⟨rfl, htail⟩ := List.cons.inj h
      obtain ⟨rfl, rfl⟩ := ih (fun hz => ha (List.mem_cons_of_mem _ hz))
        (fun hz => hc (List.mem_cons_of_mem _ hz)) htail
      exact ⟨rfl, rfl⟩

/-- What stands before and after the last occurrence of a separator. -/
theorem append_cons_inj_last {α : Type*} {z : α} {a b c d : List α} (hb : z ∉ b) (hd : z ∉ d)
    (h : a ++ z :: b = c ++ z :: d) : a = c ∧ b = d := by
  have hrev := congrArg List.reverse h
  simp only [List.reverse_append, List.reverse_cons, List.append_assoc, List.singleton_append] at hrev
  obtain ⟨h₁, h₂⟩ := append_cons_inj_first (List.mem_reverse.not.mpr hb)
    (List.mem_reverse.not.mpr hd) hrev
  exact ⟨List.reverse_injective h₂, List.reverse_injective h₁⟩

/-! ## Hosts and ports -/

/-- The host as it stands before the colon. -/
def wrapHost (host : List Char) : List Char :=
  if ':' ∈ host then '[' :: (host ++ [']']) else host

theorem joinHostPort_toList (host : String) (n : Nat) :
    (joinHostPort host n).toList = wrapHost host.toList ++ ':' :: Nat.toDigits 10 n := by
  have hport : (toString (n : Int)).toList = Nat.toDigits 10 n := by
    rw [show toString (n : Int) = toString n from rfl, toString_eq_ofList, String.toList_ofList]
  unfold joinHostPort wrapHost
  by_cases h : ':' ∈ host.toList
  · simp only [if_pos h, String.toList_append, hport]
    simp
  · simp only [if_neg h, String.toList_append, hport]
    simp

theorem wrapHost_injective : Function.Injective wrapHost := by
  intro h h' heq
  unfold wrapHost at heq
  by_cases hc : ':' ∈ h
  · by_cases hc' : ':' ∈ h'
    · rw [if_pos hc, if_pos hc'] at heq
      exact List.append_cancel_right (List.cons.inj heq).2
    · rw [if_pos hc, if_neg hc'] at heq
      exact absurd (heq ▸ List.mem_cons_of_mem _ (List.mem_append_left _ hc)) hc'
  · by_cases hc' : ':' ∈ h'
    · rw [if_neg hc, if_pos hc'] at heq
      exact absurd (heq ▸ List.mem_cons_of_mem _ (List.mem_append_left _ hc')) hc
    · rwa [if_neg hc, if_neg hc'] at heq

theorem toDigits_injective {n n' : Nat} (h : Nat.toDigits 10 n = Nat.toDigits 10 n') : n = n' := by
  rw [← Nat.ofDigitChars_ten_toDigits (n := n), h, Nat.ofDigitChars_ten_toDigits]

theorem joinHostPort_inj {host host' : String} {n n' : Nat}
    (h : joinHostPort host n = joinHostPort host' n') : host = host' ∧ n = n' := by
  have hlist := congrArg String.toList h
  rw [joinHostPort_toList, joinHostPort_toList] at hlist
  obtain ⟨hhost, hport⟩ := append_cons_inj_last (notMem_toDigits (by decide) n)
    (notMem_toDigits (by decide) n') hlist
  exact ⟨String.toList_inj.mp (wrapHost_injective hhost), toDigits_injective hport⟩

theorem slash_notMem_joinHostPort (a : IPText) (n : Nat) : '/' ∉ (joinHostPort a.text n).toList := by
  have hdigits := notMem_toDigits (c := '/') (by decide) n
  rw [joinHostPort_toList, wrapHost]
  split <;> simp [a.noDelim.1, hdigits]

theorem dest_string_injective : Function.Injective Dest.string := by
  intro d d' h
  obtain ⟨haddr, hport⟩ := joinHostPort_inj h
  cases d with
  | mk address port =>
    cases d' with
    | mk address' port' =>
      cases address
      cases address'
      cases haddr
      cases UInt16.toNat_inj.mp hport
      rfl

theorem slash_notMem_protocolText (p : Protocol) : '/' ∉ (protocolText p).toList := by
  cases p <;> decide

theorem protocolText_injective : Function.Injective protocolText := by
  intro p p' h
  cases p <;> cases p' <;> first | rfl | exact absurd h (by decide)

theorem uniqueRSName_injective {k k' : VirtualServerKey} {d d' : Dest}
    (h : uniqueRSName k d = uniqueRSName k' d') : k = k' ∧ d = d' := by
  have hlist := congrArg String.toList h
  have hslash : "/".toList = ['/'] := rfl
  simp only [uniqueRSName, VirtualServerKey.string, String.toList_append, hslash, List.append_assoc,
    List.singleton_append] at hlist
  obtain ⟨hjoin, hlist⟩ := append_cons_inj_first (slash_notMem_joinHostPort _ _)
    (slash_notMem_joinHostPort _ _) hlist
  obtain ⟨hprotocol, hdest⟩ := append_cons_inj_first (slash_notMem_protocolText _)
    (slash_notMem_protocolText _) hlist
  have hkey : (⟨k.address, k.port⟩ : Dest) = ⟨k'.address, k'.port⟩ :=
    dest_string_injective (String.toList_inj.mp hjoin)
  obtain ⟨haddress, hport⟩ := Dest.mk.inj hkey
  refine ⟨?_, dest_string_injective (String.toList_inj.mp hdest)⟩
  cases k
  cases k'
  cases haddress
  cases hport
  cases protocolText_injective (String.toList_inj.mp hprotocol)
  rfl

/-! ## Reading a text -/

theorem takeWhile_after_last {z : Char} (a : List Char) {b : List Char} (hb : z ∉ b) :
    ((a ++ z :: b).reverse.takeWhile (· ≠ z)).reverse = b := by
  have hall : ∀ c ∈ b.reverse, decide (c ≠ z) = true := by
    intro c hc
    refine decide_eq_true fun heq => hb ?_
    rw [← heq]
    exact List.mem_reverse.mp hc
  simp only [List.reverse_append, List.reverse_cons, List.append_assoc, List.singleton_append]
  rw [List.takeWhile_append_of_pos hall, List.takeWhile_cons_of_neg (by simp)]
  simp

theorem splitHostPort_joinHostPort (a : IPText) (n : Nat) :
    splitHostPort (joinHostPort a.text n) = .ok (a.text, String.ofList (Nat.toDigits 10 n)) := by
  obtain ⟨-, hopen, hclose⟩ := a.noDelim
  have hcolon := notMem_toDigits (c := ':') (by decide) n
  have hdopen := notMem_toDigits (c := '[') (by decide) n
  have hdclose := notMem_toDigits (c := ']') (by decide) n
  have hcs := joinHostPort_toList a.text n
  have hport := takeWhile_after_last (wrapHost a.text.toList) hcolon
  unfold splitHostPort
  simp only [hcs, hport]
  rw [if_neg (by simp)]
  by_cases hc : ':' ∈ a.text.toList
  · -- In brackets: the first closing one stands right before the last colon.
    have hwrap : wrapHost a.text.toList ++ ':' :: Nat.toDigits 10 n =
        '[' :: (a.text.toList ++ ']' :: ':' :: Nat.toDigits 10 n) := by
      rw [wrapHost, if_pos hc]
      simp
    have hidx : ('[' :: (a.text.toList ++ ']' :: ':' :: Nat.toDigits 10 n)).idxOf ']' =
        a.text.toList.length + 1 := by
      rw [List.idxOf_cons_ne _ (by decide), List.idxOf_append_of_notMem hclose]
      simp
    have hlen : ('[' :: (a.text.toList ++ ']' :: ':' :: Nat.toDigits 10 n)).length =
        a.text.toList.length + (Nat.toDigits 10 n).length + 3 := by
      simp only [List.length_cons, List.length_append]
      omega
    have hdrop : ('[' :: (a.text.toList ++ ']' :: ':' :: Nat.toDigits 10 n)).drop
        (a.text.toList.length + 1 + 1) = ':' :: Nat.toDigits 10 n := by
      simp
    rw [hwrap, hidx, hlen, if_pos List.head?_cons, if_neg (by omega), if_pos (by omega), hdrop]
    simp [hopen, hdopen, hdclose]
  · have hwrap : wrapHost a.text.toList = a.text.toList := if_neg hc
    have hhead : (a.text.toList ++ ':' :: Nat.toDigits 10 n).head? ≠ some '[' := by
      cases ha : a.text.toList with
      | nil => simp
      | cons c cs =>
        rintro h
        rw [ha] at hopen
        simp at h
        simp [h] at hopen
    have hlen : (a.text.toList ++ ':' :: Nat.toDigits 10 n).length - (Nat.toDigits 10 n).length - 1 =
        a.text.toList.length := by
      simp only [List.length_append, List.length_cons]
      omega
    rw [hwrap, if_neg hhead, hlen, List.take_left, if_neg hc]
    simp [hopen, hclose, hdopen, hdclose]

theorem atoi_toDigits {n : Nat} (h : n < 2 ^ 16) :
    atoi (String.ofList (Nat.toDigits 10 n)) = .ok n := by
  have hnil : Nat.toDigits 10 n ≠ [] := Nat.toDigits_ne_nil
  have hall : (Nat.toDigits 10 n).all Char.isDigit = true :=
    List.all_eq_true.mpr fun c hc => Nat.isDigit_of_mem_toDigits (by decide) (by decide) hc
  have hdigits : atoiDigits (Nat.toDigits 10 n) (2 ^ 63) = .ok n := by
    unfold atoiDigits
    rw [if_neg (not_or.mpr ⟨hnil, not_not_intro hall⟩), Nat.ofDigitChars_ten_toDigits,
      if_pos (by omega)]
  unfold atoi
  rw [String.toList_ofList]
  split
  · rename_i ds heq
    rw [heq] at hall
    simp at hall
  · rename_i ds heq
    rw [heq] at hall
    simp at hall
  · rw [hdigits]
    rfl

/-- The address of the destination is read as itself. -/
def ReadsBack (cfg : Config) (d : Dest) : Prop := cfg.parseIPSloppy d.address.text = d.address

theorem parseEndpoint_string {cfg : Config} {d : Dest} (h : ReadsBack cfg d) :
    parseEndpoint cfg d.string = some d := by
  have hport : d.port.toNat < 2 ^ 16 := d.port.toNat_lt
  rw [parseEndpoint, Dest.string, splitHostPort_joinHostPort]
  simp only [atoi_toDigits hport, show cfg.parseIPSloppy d.address.text = d.address from h]
  have hmod : ((d.port.toNat : Int) % 2 ^ 16).toNat = d.port.toNat := by omega
  rw [UInt16.ofInt, hmod, UInt16.ofNat_toNat]

theorem readsBack_of_parse {cfg : Config} {ep : String} {d : Dest}
    (h : parseEndpoint cfg ep = some d) : ReadsBack cfg d := by
  unfold parseEndpoint at h
  split at h
  · cases h
  · split at h
    · cases h
    · cases h
      exact cfg.parse_text _

end Fleetboard.Ipvs
