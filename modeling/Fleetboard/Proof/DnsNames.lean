import Fleetboard.Model.Dns

/-!
# Names on texts

* `lower_domainName`: a name in lower case has its labels in lower case;
* `SplitDomainName_domainName`, `CountLabel_domainName`: a name falls into its labels;
* `textDns`: the functions of the DNS libraries, on texts.
-/

namespace Fleetboard.Plugin

/-! ## Labels -/

namespace Label

theorem name_ne_empty (l : Label) : l.name ≠ "" := by
  intro h
  have htext : (String.ofList l.text).toList = "".toList := congrArg String.toList h
  rw [String.toList_ofList] at htext
  exact l.nonempty htext

/-- A letter becomes a letter, so nothing becomes a dot or a backslash. -/
theorem toLower_eq_iff {c d : Char} (hd : d = '.' ∨ d = '\\') : c.toLower = d ↔ c = d := by
  unfold Char.toLower
  split
  · rename_i hup
    have hlo : 65 ≤ c.toNat := UInt32.le_iff_toNat_le.mp hup.1
    have hhi : c.toNat ≤ 90 := UInt32.le_iff_toNat_le.mp hup.2
    constructor
    · intro h
      have hcode : (c.toNat + 32) % 4294967296 = d.toNat := congrArg Char.toNat h
      rcases hd with rfl | rfl
      · have : '.'.toNat = 46 := rfl
        omega
      · have : '\\'.toNat = 92 := rfl
        omega
    · rintro rfl
      rcases hd with rfl | rfl
      · exact absurd hup (by decide)
      · exact absurd hup (by decide)
  · rfl

/-- The label in lower case. -/
def lower (l : Label) : Label where
  text := l.text.map Char.toLower
  nonempty := fun h => l.nonempty (List.map_eq_nil_iff.mp h)
  plain := by
    rw [Escaped.plainFrom_map (fun c => toLower_eq_iff (.inl rfl))
      (fun c => toLower_eq_iff (.inr rfl))]
    exact l.plain

end Label

theorem lower_domainName (labels : List Label) :
    ToLower (domainName labels) = domainName (labels.map Label.lower) := by
  unfold ToLower domainName
  by_cases hne : labels = []
  · rw [if_pos hne, if_pos (List.map_eq_nil_iff.mpr hne)]
    rfl
  · have htexts : (labels.map Label.name).map String.toList = labels.map Label.text := by
      rw [List.map_map]
      exact List.map_congr_left fun l _ => String.toList_ofList
    have hlower : ((labels.map Label.lower).map Label.name).map String.toList =
        (labels.map Label.text).map (List.map Char.toLower) := by
      rw [List.map_map, List.map_map, List.map_map]
      exact List.map_congr_left fun l _ => String.toList_ofList
    rw [if_neg hne, if_neg fun h => hne (List.map_eq_nil_iff.mp h), ← String.toList_inj,
      String.toList_ofList, String.toList_append, String.toList_append, String.toList_intercalate,
      String.toList_intercalate, htexts, hlower, List.map_append,
      show ".".toList = ['.'] from rfl, Escaped.map_intercalate (by decide)]
    rfl

theorem domainName_ne_empty (labels : List Label) : domainName labels ≠ "" := by
  unfold domainName
  split
  · decide
  · intro h
    have hdot := String.append_eq_empty_iff.mp h
    exact absurd hdot.2 (by decide)

/-- The labels of a query as the parser sees them. -/
def names (labels : List Label) : List String := labels.map fun l => l.lower.name

theorem names_append (labels labels' : List Label) :
    names (labels ++ labels') = names labels ++ names labels' := List.map_append

theorem length_names (labels : List Label) : (names labels).length = labels.length :=
  List.length_map _

/-! ## The functions of the libraries -/

/-- The parts of a name between its dots, the one after the last dot included. -/
def nameParts (s : String) : List String := (Escaped.split '.' '\\' s.toList).map String.ofList

/-- `dns.SplitDomainName`: the dot at the end of a name divides nothing. -/
def SplitDomainName (s : String) : List String :=
  if s = "" ∨ s = "." then []
  else if (nameParts s).getLast? = some "" then (nameParts s).dropLast
  else nameParts s

/-- `dns.CountLabel`. -/
def CountLabel (s : String) : Nat := if s = "" then 1 else (SplitDomainName s).length

/-- `dnsutil.TrimZone`: the name without as many labels as the zone has, and without the
dot before them. A name that has no more labels is the empty text. -/
def TrimZone (q z : String) : String :=
  if (SplitDomainName q).length ≤ CountLabel z then ""
  else ".".intercalate ((SplitDomainName q).take ((SplitDomainName q).length - CountLabel z))

/-- `dns.CompareDomainName`: how many labels two names share, from the right. -/
def CompareDomainName (s1 s2 : String) : Nat :=
  (((SplitDomainName (ToLower s1)).reverse.zip (SplitDomainName (ToLower s2)).reverse).takeWhile
    fun labels => labels.1 = labels.2).length

/-- `dns.IsSubDomain`. -/
def IsSubDomain (parent child : String) : Bool := CompareDomainName parent child = CountLabel parent

/-- `plugin.Zones.Matches`. -/
def Matches (zones : List String) (qname : String) : String :=
  zones.foldl
    (fun zone zname => if IsSubDomain zname qname ∧ zone.length < zname.length then zname else zone)
    ""

theorem nameParts_intercalate {parts : List String} (hne : parts ≠ [])
    (h : ∀ p ∈ parts, Escaped.plainFrom '.' '\\' false p.toList = true) :
    nameParts (".".intercalate parts) = parts := by
  have hplain : ∀ w ∈ parts.map String.toList, Escaped.plainFrom '.' '\\' false w = true := by
    intro w hw
    obtain ⟨p, hp, rfl⟩ := List.mem_map.mp hw
    exact h p hp
  have hsplit : Escaped.split '.' '\\' (['.'].intercalate (parts.map String.toList)) =
      parts.map String.toList :=
    Escaped.split_intercalate (fun hnil => hne (List.map_eq_nil_iff.mp hnil)) hplain
  unfold nameParts
  rw [String.toList_intercalate, show ".".toList = ['.'] from rfl, hsplit, List.map_map]
  exact (List.map_congr_left fun p _ => String.ofList_toList).trans (List.map_id parts)

theorem names_plain {labels : List Label} :
    ∀ p ∈ labels.map Label.name, Escaped.plainFrom '.' '\\' false p.toList = true := by
  intro p hp
  obtain ⟨l, _, rfl⟩ := List.mem_map.mp hp
  rw [Label.name, String.toList_ofList]
  exact l.plain

/-- The labels of a name, whether or not it ends in a dot. -/
theorem SplitDomainName_of_parts {s : String} {labels : List Label} (hne : labels ≠ [])
    (h : nameParts s = labels.map Label.name ∨ nameParts s = labels.map Label.name ++ [""]) :
    SplitDomainName s = labels.map Label.name := by
  have hhead : (nameParts s).head? ≠ some "" := by
    obtain ⟨l, rest, rfl⟩ := List.exists_cons_of_ne_nil hne
    rcases h with h | h
    · rw [h]
      exact fun hl => l.name_ne_empty (Option.some.inj hl)
    · rw [h]
      exact fun hl => l.name_ne_empty (Option.some.inj hl)
  have hs : ¬ (s = "" ∨ s = ".") := by
    rintro (rfl | rfl)
    · exact hhead rfl
    · exact hhead rfl
  unfold SplitDomainName
  rw [if_neg hs]
  rcases h with h | h
  · have hlast : (nameParts s).getLast? ≠ some "" := by
      intro hl
      rw [h] at hl
      obtain ⟨l, _, hempty⟩ := List.mem_map.mp (List.mem_of_getLast? hl)
      exact l.name_ne_empty hempty
    rw [if_neg hlast, h]
  · rw [h, if_pos List.getLast?_concat, List.dropLast_concat]

theorem SplitDomainName_intercalate (labels : List Label) :
    SplitDomainName (".".intercalate (labels.map Label.name)) = labels.map Label.name := by
  by_cases hne : labels = []
  · rw [hne]
    rfl
  · have hnames : labels.map Label.name ≠ [] := fun h => hne (List.map_eq_nil_iff.mp h)
    exact SplitDomainName_of_parts hne (.inl (nameParts_intercalate hnames names_plain))

theorem SplitDomainName_domainName (labels : List Label) :
    SplitDomainName (domainName labels) = labels.map Label.name := by
  unfold domainName
  by_cases hne : labels = []
  · rw [if_pos hne, hne]
    rfl
  · have hnames : labels.map Label.name ≠ [] := fun h => hne (List.map_eq_nil_iff.mp h)
    have hdot : ".".intercalate (labels.map Label.name) ++ "." =
        ".".intercalate (labels.map Label.name ++ [""]) := by
      rw [String.intercalate_append_of_ne_nil hnames (List.cons_ne_nil _ _),
        String.intercalate_singleton, String.append_empty]
    have hplain : ∀ p ∈ labels.map Label.name ++ [""],
        Escaped.plainFrom '.' '\\' false p.toList = true := by
      intro p hp
      rcases List.mem_append.mp hp with hp | hp
      · exact names_plain p hp
      · rw [List.mem_singleton.mp hp]
        rfl
    rw [if_neg hne, hdot]
    exact SplitDomainName_of_parts hne
      (.inr (nameParts_intercalate (List.append_ne_nil_of_left_ne_nil hnames _) hplain))

theorem CountLabel_domainName (labels : List Label) :
    CountLabel (domainName labels) = labels.length := by
  unfold CountLabel
  rw [if_neg (domainName_ne_empty labels), SplitDomainName_domainName, List.length_map]

theorem TrimZone_domainName (labels zone : List Label) {zone' : List Label}
    (h : zone'.length = zone.length) :
    TrimZone (domainName (labels ++ zone)) (domainName zone') =
      ".".intercalate (labels.map Label.name) := by
  have hname : SplitDomainName (domainName (labels ++ zone)) =
      labels.map Label.name ++ zone.map Label.name := by
    rw [SplitDomainName_domainName, List.map_append]
  have hzone : CountLabel (domainName zone') = (zone.map Label.name).length := by
    rw [CountLabel_domainName, h, List.length_map]
  unfold TrimZone
  rw [hname, hzone, List.length_append, Nat.add_sub_cancel, List.take_left]
  split
  · rename_i hle
    have hnil : labels.map Label.name = [] := List.eq_nil_of_length_eq_zero (by omega)
    rw [hnil]
    rfl
  · rfl

theorem length_takeWhile_zip_append {α : Type} [DecidableEq α] (l r : List α) :
    ((l.zip (l ++ r)).takeWhile fun p => p.1 = p.2).length = l.length := by
  induction l with
  | nil => rfl
  | cons a l ih =>
    have hhead : ((a, a) :: l.zip (l ++ r)).takeWhile (fun p => p.1 = p.2) =
        (a, a) :: (l.zip (l ++ r)).takeWhile (fun p => p.1 = p.2) :=
      List.takeWhile_cons_of_pos (decide_eq_true rfl)
    rw [List.cons_append, List.zip_cons_cons, hhead, List.length_cons, ih, List.length_cons]

theorem isSubDomain_append (labels zone : List Label) :
    IsSubDomain (domainName zone) (domainName (labels ++ zone)) = true := by
  have hsplit (ls : List Label) : SplitDomainName (ToLower (domainName ls)) = names ls := by
    rw [lower_domainName, SplitDomainName_domainName, List.map_map]
    rfl
  unfold IsSubDomain CompareDomainName
  rw [hsplit, hsplit, names_append, List.reverse_append, length_takeWhile_zip_append,
    List.length_reverse, length_names, CountLabel_domainName]
  exact decide_eq_true rfl

theorem Matches_domainName (labels zone : List Label) :
    Matches [domainName zone] (domainName (labels ++ zone)) = domainName zone := by
  have hempty : "".length < (domainName zone).length :=
    Nat.pos_of_ne_zero fun h => domainName_ne_empty zone (String.length_eq_zero_iff.mp h)
  unfold Matches
  rw [List.foldl_cons, List.foldl_nil, if_pos ⟨isSubDomain_append labels zone, hempty⟩]

/-- The libraries on texts. -/
def textDns : DnsLib where
  SplitDomainName := SplitDomainName
  TrimZone := TrimZone
  Matches := Matches
  SplitDomainName_labels := SplitDomainName_intercalate
  TrimZone_append := TrimZone_domainName
  Matches_singleton := Matches_domainName

end Fleetboard.Plugin
