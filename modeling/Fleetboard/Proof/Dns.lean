import Fleetboard.Proof.DnsNames

/-!
# What a query is parsed into

* `segs_query`: the zone comes off the name of a query, and the rest falls into its labels;
* `parseRequest_eq`: with a service and its namespace next to `svc` or `pod`, the rest of
  the name is left to `parseSegments`;
* `parseRequest_accounts_iff`: every label ends up in its field, and exactly the names
  outside the grammar are refused, unless the query is one for AAAA records that has a
  label before the service.
-/

namespace Fleetboard.Plugin

/-! ## The labels of a query -/

def svcLabel : Label := ⟨"svc".toList, by decide, by decide⟩

def podLabel : Label := ⟨"pod".toList, by decide, by decide⟩

/-- The query for a name in a zone. -/
def query (labels zone : List Label) (qType : QType) : Request :=
  ⟨domainName (labels ++ zone), domainName zone, qType⟩

/-- The zone comes off the name, and the rest falls into its labels. -/
theorem segs_query (lib : DnsLib) (labels zone : List Label) (qType : QType) :
    lib.SplitDomainName
        (lib.TrimZone (query labels zone qType).Name (query labels zone qType).Zone) =
      names labels := by
  have hname : (query labels zone qType).Name =
      domainName (labels.map Label.lower ++ zone.map Label.lower) :=
    (lower_domainName (labels ++ zone)).trans (congrArg domainName List.map_append)
  have hlen : zone.length = (zone.map Label.lower).length := (List.length_map _).symm
  rw [hname]
  refine (congrArg lib.SplitDomainName (lib.TrimZone_append _ _ hlen)).trans ?_
  rw [lib.SplitDomainName_labels, List.map_map]
  rfl

theorem names_ne_empty {labels : List Label} : ∀ s ∈ names labels, s ≠ "" := by
  intro s hs
  obtain ⟨l, _, rfl⟩ := List.mem_map.mp hs
  exact l.lower.name_ne_empty

/-! ## The documented grammar -/

/-- A port or a protocol without its leading underscore. -/
def withoutUnderscore (s : String) : String :=
  if s.toList.head? = some '_' then String.ofList s.toList.tail else s

/-- `[[host.]cluster.]service.namespace.svc|pod`. -/
def addressGrammar : List String → Option RecordRequest
  | [ns, podOrSvc] => some { ns, podOrSvc }
  | [service, ns, podOrSvc] => some { service, ns, podOrSvc }
  | [cluster, service, ns, podOrSvc] => some { cluster, service, ns, podOrSvc }
  | [hostname, cluster, service, ns, podOrSvc] =>
    some { hostname, cluster, service, ns, podOrSvc }
  | _ => none

/-- `[port.protocol.][cluster.]service.namespace.svc|pod`. -/
def srvGrammar : List String → Option RecordRequest
  | [ns, podOrSvc] => some { ns, podOrSvc }
  | [service, ns, podOrSvc] => some { service, ns, podOrSvc }
  | [cluster, service, ns, podOrSvc] => some { cluster, service, ns, podOrSvc }
  | [port, protocol, service, ns, podOrSvc] =>
    some { port := withoutUnderscore port, protocol := withoutUnderscore protocol,
           service, ns, podOrSvc }
  | [port, protocol, cluster, service, ns, podOrSvc] =>
    some { port := withoutUnderscore port, protocol := withoutUnderscore protocol,
           cluster, service, ns, podOrSvc }
  | _ => none

def documented : QType → List String → Option RecordRequest
  | .TypeA | .TypeAAAA => addressGrammar
  | .TypeSRV => srvGrammar

/-- The number of labels of the longest name of the grammar. -/
def maxLabels : QType → Nat
  | .TypeA | .TypeAAAA => 5
  | .TypeSRV => 6

theorem documented_two (qType : QType) (ns podOrSvc : String) :
    documented qType [ns, podOrSvc] = some { ns, podOrSvc } := by
  cases qType with
  | TypeA => rfl
  | TypeAAAA => rfl
  | TypeSRV => rfl

theorem documented_three (qType : QType) (service ns podOrSvc : String) :
    documented qType [service, ns, podOrSvc] = some { service, ns, podOrSvc } := by
  cases qType with
  | TypeA => rfl
  | TypeAAAA => rfl
  | TypeSRV => rfl

theorem three_le_maxLabels (qType : QType) : 3 ≤ maxLabels qType := by
  cases qType with
  | TypeA => decide
  | TypeAAAA => decide
  | TypeSRV => decide

/-- The label next to the zone is `svc` or `pod`. -/
def EndsInKind (segs : List String) : Prop := segs.getLast? = some Svc ∨ segs.getLast? = some Pod

/-- The query is answered with a request that has every label in its documented field, or
it is refused, and it is refused exactly if its name is not one of the grammar. -/
def Accounts (lib : DnsLib) (labels zone : List Label) (qType : QType) : Prop :=
  ∃ r err, parseRequest lib (query labels zone qType) = .ok (r, err) ∧
    (err = none → documented qType (names labels) = some r) ∧
    (err = some errInvalidRequest ↔
      ¬ EndsInKind (names labels) ∨ maxLabels qType < labels.length)

/-! ## The parser from the right -/

theorem stripUnderscore_eq {s : String} (h : s ≠ "") :
    stripUnderscore s = .ok (withoutUnderscore s) := by
  unfold stripUnderscore withoutUnderscore
  cases hs : s.toList with
  | nil => exact absurd (String.toList_eq_nil_iff.mp hs) h
  | cons c rest =>
    simp only [List.head?_cons, Option.some.injEq, List.tail_cons]
    by_cases hc : c = '_'
    · rw [if_neg (not_not.mpr hc), if_pos hc]
    · rw [if_pos hc, if_neg hc]

/-- A name of two labels or more is none of those that are answered at once. -/
theorem base_of_segs {lib : DnsLib} {base : String} {segs : List String}
    (h : lib.SplitDomainName base = segs) (hlen : 2 ≤ segs.length) :
    ¬ (base = "" ∨ base = Svc ∨ base = Pod) := by
  have hshort (labels : List Label) (hlabels : labels.length ≤ 1) :
      base ≠ ".".intercalate (labels.map Label.name) := by
    rintro rfl
    rw [← h, lib.SplitDomainName_labels, List.length_map] at hlen
    exact absurd hlen (by omega)
  rintro (hbase | hbase | hbase)
  · exact hshort [] (Nat.zero_le 1) hbase
  · exact hshort [svcLabel] (le_refl 1) hbase
  · exact hshort [podLabel] (le_refl 1) hbase

section
variable {lib : DnsLib} {state : Request} {front : List String} {service ns podOrSvc : String}

theorem parseRequest_refused (hfront : front ≠ [])
    (h : lib.SplitDomainName (lib.TrimZone state.Name state.Zone) = front ++ [podOrSvc])
    (hkind : podOrSvc ≠ Pod ∧ podOrSvc ≠ Svc) :
    parseRequest lib state = .ok ({ podOrSvc }, some errInvalidRequest) := by
  have hpos := List.length_pos_iff.mpr hfront
  have hlen : (front ++ [podOrSvc]).length = front.length + 1 := List.length_append
  have hbase := base_of_segs h (by omega)
  have hlast : ((front ++ [podOrSvc]).length - 1 : Int) = front.length := by
    rw [hlen]
    omega
  unfold parseRequest
  simp only [if_neg hbase, h, hlast, Int.toNat_natCast, Go.index_append,
    if_neg (Int.not_lt.mpr (Int.natCast_nonneg front.length))]
  exact if_pos hkind

theorem parseRequest_two (h : lib.SplitDomainName (lib.TrimZone state.Name state.Zone) = [ns, podOrSvc])
    (hkind : ¬ (podOrSvc ≠ Pod ∧ podOrSvc ≠ Svc)) :
    parseRequest lib state = .ok ({ ns, podOrSvc }, none) := by
  have hbase := base_of_segs h (le_refl 2)
  unfold parseRequest
  simp only [if_neg hbase, h]
  exact if_neg hkind

/-- The kind, the namespace and the service come from the right, and `parseSegments` does
the rest. -/
theorem parseRequest_eq
    (h : lib.SplitDomainName (lib.TrimZone state.Name state.Zone) = front ++ [service, ns, podOrSvc])
    (hkind : ¬ (podOrSvc ≠ Pod ∧ podOrSvc ≠ Svc)) :
    parseRequest lib state =
      if front = [] then .ok ({ service, ns, podOrSvc }, none)
      else parseSegments (front ++ [service, ns, podOrSvc]) (front.length - 1)
        { service, ns, podOrSvc } state.QType := by
  have hlen : (front ++ [service, ns, podOrSvc]).length = front.length + 3 := List.length_append
  have hbase := base_of_segs h (by omega)
  have hpod : Go.index (front ++ [service, ns, podOrSvc]) (front.length + 2) = .ok podOrSvc := by
    have hat := Go.index_append (front ++ [service, ns]) podOrSvc []
    rwa [List.append_assoc, List.length_append] at hat
  have hns : Go.index (front ++ [service, ns, podOrSvc]) (front.length + 1) = .ok ns := by
    have hat := Go.index_append (front ++ [service]) ns [podOrSvc]
    rwa [List.append_assoc, List.length_append] at hat
  have hlast : ((front.length + 3 : Nat) - 1 : Int) = (front.length + 2 : Nat) := by omega
  have hlast₁ : ((front.length + 2 : Nat) - 1 : Int) = (front.length + 1 : Nat) := by omega
  have hlast₂ : ((front.length + 1 : Nat) - 1 : Int) = front.length := by omega
  have hge (n : Nat) : ¬ (n : Int) < 0 := Int.not_lt.mpr (Int.natCast_nonneg n)
  unfold parseRequest
  simp only [if_neg hbase, h, hlen, hlast, hlast₁, hlast₂, if_neg (hge _), Int.toNat_natCast]
  rw [hpod, hns, Go.index_append]
  refine (if_neg hkind).trans ?_
  by_cases hfront : front = []
  · subst hfront
    rfl
  · have hpos := List.length_pos_iff.mpr hfront
    have hcount : ((front.length : Int) - 1).toNat = front.length - 1 := by omega
    have hleft : ¬ ((front.length : Int) - 1 < 0) := by omega
    rw [if_neg hfront, ← hcount]
    exact if_neg hleft

end

section
variable {front : List String} {service ns podOrSvc : String}

/-- The labels before the service of a query for A records. -/
theorem parseSegments_address (hne : front ≠ []) :
    (∃ r, parseSegments (front ++ [service, ns, podOrSvc]) (front.length - 1)
        { service, ns, podOrSvc } .TypeA = .ok (r, none) ∧
      addressGrammar (front ++ [service, ns, podOrSvc]) = some r ∧ front.length ≤ 2) ∨
    (parseSegments (front ++ [service, ns, podOrSvc]) (front.length - 1)
        { service, ns, podOrSvc } .TypeA =
        .ok ({ service, ns, podOrSvc }, some errInvalidRequest) ∧ 2 < front.length) := by
  rcases front with _ | ⟨a, _ | ⟨b, _ | ⟨c, rest⟩⟩⟩
  · exact absurd rfl hne
  · exact .inl ⟨_, rfl, rfl, Nat.le_succ 1⟩
  · exact .inl ⟨_, rfl, rfl, le_refl 2⟩
  · exact .inr ⟨rfl, Nat.le_add_left 3 rest.length⟩

/-- The labels before the service of a query for SRV records. -/
theorem parseSegments_srv (hne : front ≠ []) (hfront : ∀ s ∈ front, s ≠ "") :
    (∃ r, parseSegments (front ++ [service, ns, podOrSvc]) (front.length - 1)
        { service, ns, podOrSvc } .TypeSRV = .ok (r, none) ∧
      srvGrammar (front ++ [service, ns, podOrSvc]) = some r ∧ front.length ≤ 3) ∨
    (parseSegments (front ++ [service, ns, podOrSvc]) (front.length - 1)
        { service, ns, podOrSvc } .TypeSRV =
        .ok ({ service, ns, podOrSvc }, some errInvalidRequest) ∧ 3 < front.length) := by
  rcases front with _ | ⟨a, _ | ⟨b, _ | ⟨c, _ | ⟨d, rest⟩⟩⟩⟩
  · exact absurd rfl hne
  · exact .inl ⟨_, rfl, rfl, Nat.le_add_left 1 2⟩
  · have ha := stripUnderscore_eq (hfront a (by simp))
    have hb := stripUnderscore_eq (hfront b (by simp))
    have hstrip : parseSegments [a, b, service, ns, podOrSvc] 1 { service, ns, podOrSvc } .TypeSRV =
        (do
          let protocol ← stripUnderscore b
          let port ← stripUnderscore a
          return ({ port, protocol, service, ns, podOrSvc }, none)) := rfl
    rw [hb, ha] at hstrip
    exact .inl ⟨_, hstrip, rfl, Nat.le_add_left 2 1⟩
  · have ha := stripUnderscore_eq (hfront a (by simp))
    have hb := stripUnderscore_eq (hfront b (by simp))
    have hstrip : parseSegments [a, b, c, service, ns, podOrSvc] 2 { service, ns, podOrSvc }
        .TypeSRV =
        (do
          let protocol ← stripUnderscore b
          let port ← stripUnderscore a
          return ({ port, protocol, cluster := c, service, ns, podOrSvc }, none)) := rfl
    rw [hb, ha] at hstrip
    exact .inl ⟨_, hstrip, rfl, le_refl 3⟩
  · exact .inr ⟨rfl, Nat.le_add_left 4 rest.length⟩

end

/-! ## Every label in its field -/

section
variable {lib : DnsLib} {labels zone : List Label} {qType : QType}

theorem accounts_of_error {r : RecordRequest}
    (h : parseRequest lib (query labels zone qType) = .ok (r, some errInvalidRequest))
    (hout : ¬ EndsInKind (names labels) ∨ maxLabels qType < labels.length) :
    Accounts lib labels zone qType :=
  ⟨r, some errInvalidRequest, h, fun herr => absurd herr (Option.some_ne_none _),
    iff_of_true rfl hout⟩

theorem accounts_of_ok {r : RecordRequest}
    (h : parseRequest lib (query labels zone qType) = .ok (r, none))
    (hr : documented qType (names labels) = some r) (hkind : EndsInKind (names labels))
    (hlen : labels.length ≤ maxLabels qType) : Accounts lib labels zone qType := by
  refine ⟨r, none, h, fun _ => hr, iff_of_false (Option.some_ne_none _).symm ?_⟩
  rintro (hout | hout)
  · exact hout hkind
  · exact Nat.not_lt.mpr hlen hout

theorem documented_of_accounts {r : RecordRequest}
    (h : parseRequest lib (query labels zone qType) = .ok (r, none)) (ha : Accounts lib labels zone qType) :
    documented qType (names labels) = some r := by
  obtain ⟨r', err, hparse, hok, _⟩ := ha
  rw [h] at hparse
  obtain ⟨rfl, rfl⟩ := Prod.mk.inj (Except.ok.inj hparse)
  exact hok rfl

theorem endsInKind_iff {segs front : List String} {podOrSvc : String}
    (h : segs = front ++ [podOrSvc]) :
    EndsInKind segs ↔ ¬ (podOrSvc ≠ Pod ∧ podOrSvc ≠ Svc) := by
  unfold EndsInKind
  rw [h, List.getLast?_concat, Option.some.injEq, Option.some.injEq]
  tauto

theorem accounts_of_not_kind (h : 2 ≤ labels.length) (hkind : ¬ EndsInKind (names labels)) :
    Accounts lib labels zone qType := by
  have hlen := length_names labels
  obtain hnil | ⟨front, podOrSvc, hsegs⟩ := (names labels).eq_nil_or_concat
  · rw [hnil, List.length_nil] at hlen
    omega
  · rw [List.concat_eq_append] at hsegs
    have hfront : front ≠ [] := by
      rintro rfl
      rw [hsegs, List.length_append, List.length_nil, List.length_singleton] at hlen
      omega
    have hk := not_not.mp fun hk => hkind ((endsInKind_iff hsegs).mpr hk)
    exact accounts_of_error
      (parseRequest_refused hfront ((segs_query lib labels zone qType).trans hsegs) hk) (.inl hkind)

/-- A query of a namespace or of a service and its namespace. -/
theorem accounts_short (h : 2 ≤ labels.length) (hle : labels.length ≤ 3)
    (hkind : EndsInKind (names labels)) : Accounts lib labels zone qType := by
  have hlen := length_names labels
  have hmax := hle.trans (three_le_maxLabels qType)
  obtain htwo | hthree : labels.length = 2 ∨ labels.length = 3 := by omega
  · obtain ⟨ns, podOrSvc, hsegs⟩ := List.length_eq_two.mp (hlen.trans htwo)
    have hk := (endsInKind_iff (show _ = [ns] ++ [podOrSvc] from hsegs)).mp hkind
    have hparse := parseRequest_two ((segs_query lib labels zone qType).trans hsegs) hk
    refine accounts_of_ok hparse ?_ hkind hmax
    rw [hsegs, documented_two]
  · obtain ⟨service, ns, podOrSvc, hsegs⟩ := List.length_eq_three.mp (hlen.trans hthree)
    have hk := (endsInKind_iff (show _ = [service, ns] ++ [podOrSvc] from hsegs)).mp hkind
    have hparse := parseRequest_eq
      (show _ = [] ++ [service, ns, podOrSvc] from (segs_query lib labels zone qType).trans hsegs) hk
    refine accounts_of_ok (hparse.trans (if_pos rfl)) ?_ hkind hmax
    rw [hsegs, documented_three]

theorem addressGrammar_length {segs : List String} {r : RecordRequest}
    (h : addressGrammar segs = some r) : segs.length ≤ 5 := by
  unfold addressGrammar at h
  split at h
  · exact Nat.le_add_left 2 3
  · exact Nat.le_add_left 3 2
  · exact Nat.le_add_left 4 1
  · exact le_refl 5
  · exact absurd h.symm (Option.some_ne_none r)

theorem addressGrammar_ne {front : List String} {service ns podOrSvc : String} (hne : front ≠ [])
    (hfront : ∀ s ∈ front, s ≠ "") :
    addressGrammar (front ++ [service, ns, podOrSvc]) ≠ some { service, ns, podOrSvc } := by
  rcases front with _ | ⟨a, _ | ⟨b, _ | ⟨c, rest⟩⟩⟩
  · exact absurd rfl hne
  · intro h
    exact hfront a List.mem_cons_self (congrArg RecordRequest.cluster (Option.some.inj h))
  · intro h
    exact hfront b (List.mem_cons_of_mem _ List.mem_cons_self)
      (congrArg RecordRequest.cluster (Option.some.inj h))
  · intro h
    have hlen := addressGrammar_length h
    simp only [List.length_append, List.length_cons, List.length_nil] at hlen
    omega

/-- A query with a label before the service. -/
theorem accounts_front_iff {front : List String} {service ns podOrSvc : String} (hne : front ≠ [])
    (h : names labels = front ++ [service, ns, podOrSvc]) (hkind : EndsInKind (names labels)) :
    Accounts lib labels zone qType ↔ qType ≠ .TypeAAAA := by
  have hlen : labels.length = front.length + 3 := by
    rw [← length_names labels, h, List.length_append]
    rfl
  have hfront : ∀ s ∈ front, s ≠ "" := by
    intro s hs
    exact names_ne_empty s (h ▸ List.mem_append_left _ hs)
  have hlast : names labels = (front ++ [service, ns]) ++ [podOrSvc] := by
    rw [h, List.append_assoc]
    rfl
  have hk := (endsInKind_iff hlast).mp hkind
  have hparse : parseRequest lib (query labels zone qType) =
      parseSegments (front ++ [service, ns, podOrSvc]) (front.length - 1)
        { service, ns, podOrSvc } qType :=
    (parseRequest_eq ((segs_query lib labels zone qType).trans h) hk).trans (if_neg hne)
  cases qType with
  | TypeA =>
    refine iff_of_true ?_ (by decide)
    rcases parseSegments_address hne with ⟨r, hr, hdoc, hle⟩ | ⟨hr, hlt⟩
    · exact accounts_of_ok (hparse.trans hr) (h ▸ hdoc) hkind (hlen ▸ Nat.add_le_add_right hle 3)
    · exact accounts_of_error (hparse.trans hr) (.inr (hlen ▸ Nat.add_lt_add_right hlt 3))
  | TypeAAAA =>
    refine iff_of_false (fun ha => ?_) (not_not.mpr rfl)
    have hdoc := documented_of_accounts hparse ha
    rw [h] at hdoc
    exact addressGrammar_ne hne hfront hdoc
  | TypeSRV =>
    refine iff_of_true ?_ (by decide)
    rcases parseSegments_srv hne hfront with ⟨r, hr, hdoc, hle⟩ | ⟨hr, hlt⟩
    · exact accounts_of_ok (hparse.trans hr) (h ▸ hdoc) hkind (hlen ▸ Nat.add_le_add_right hle 3)
    · exact accounts_of_error (hparse.trans hr) (.inr (hlen ▸ Nat.add_lt_add_right hlt 3))

/-- Every label of a query is in its field, and exactly the names outside the grammar are
refused, unless the query is for AAAA records and has a label before the service: that
label is dropped, and no name is too long. -/
theorem parseRequest_accounts_iff (h : 2 ≤ labels.length) :
    Accounts lib labels zone qType ↔
      (qType = .TypeAAAA → labels.length ≤ 3 ∨ ¬ EndsInKind (names labels)) := by
  by_cases hkind : EndsInKind (names labels)
  · by_cases hle : labels.length ≤ 3
    · exact iff_of_true (accounts_short h hle hkind) fun _ => .inl hle
    · have hdrop : ((names labels).drop (labels.length - 3)).length = 3 := by
        rw [List.length_drop, length_names]
        omega
      obtain ⟨service, ns, podOrSvc, hsuffix⟩ := List.length_eq_three.mp hdrop
      have hsegs : names labels =
          (names labels).take (labels.length - 3) ++ [service, ns, podOrSvc] := by
        rw [← hsuffix, List.take_append_drop]
      have hne : (names labels).take (labels.length - 3) ≠ [] := by
        apply List.ne_nil_of_length_pos
        rw [List.length_take, length_names]
        omega
      rw [accounts_front_iff hne hsegs hkind]
      constructor
      · exact fun hq haaaa => absurd haaaa hq
      · intro hq haaaa
        rcases hq haaaa with hshort | hnot
        · exact hle hshort
        · exact hnot hkind
  · exact iff_of_true (accounts_of_not_kind h hkind) fun _ => .inr hkind

end

def shopLabel : Label := ⟨"shop".toList, by decide, by decide⟩

def webLabel : Label := ⟨"web".toList, by decide, by decide⟩

def c1Label : Label := ⟨"c1".toList, by decide, by decide⟩

/-- `c1.web.shop.svc`, as the labels of a query. -/
def clusterQuery : List Label := [c1Label, webLabel, shopLabel, svcLabel]

/-- `_http._tcp`, the labels that a query for SRV records has in front. -/
def portQuery : List Label :=
  [⟨"_http".toList, by decide, by decide⟩, ⟨"_tcp".toList, by decide, by decide⟩]

/-- `clusterset.local`. -/
def clusterset : List Label :=
  [⟨"clusterset".toList, by decide, by decide⟩, ⟨"local".toList, by decide, by decide⟩]

theorem parseRequest_accounts_srv :
    2 ≤ (portQuery ++ clusterQuery).length ∧
      Accounts textDns (portQuery ++ clusterQuery) clusterset .TypeSRV :=
  ⟨by decide, (parseRequest_accounts_iff (by decide)).mpr fun h => absurd h (by decide)⟩

/-- A query for AAAA records loses its cluster, and one that is too long is not refused. -/
theorem parseRequest_aaaa_drops :
    (parseRequest textDns (query clusterQuery clusterset .TypeAAAA) =
        .ok ({ service := "web", ns := "shop", podOrSvc := "svc" }, none) ∧
      ¬ Accounts textDns clusterQuery clusterset .TypeAAAA) ∧
    parseRequest textDns (query (portQuery ++ clusterQuery) clusterset .TypeAAAA) =
        .ok ({ service := "web", ns := "shop", podOrSvc := "svc" }, none) := by
  have hparse : parseRequest textDns (query clusterQuery clusterset .TypeAAAA) =
      .ok ({ service := "web", ns := "shop", podOrSvc := "svc" }, none) := by decide +kernel
  refine ⟨⟨hparse, fun ha => ?_⟩, by decide +kernel⟩
  exact absurd (documented_of_accounts hparse ha) (by decide +kernel)

end Fleetboard.Plugin
