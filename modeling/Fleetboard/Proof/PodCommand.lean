import Fleetboard.Model.PodCommand

/-!
# The value of a flag

The search goes through texts: every argument, and the words of an argument with spaces after
it. The first one that starts with the parameter decides (`getParameterValue_eq`), and
the value is what stands between its first two equals signs (`index_Split_iff`).

* `FindPodCommandParameter_exact`: where every command line is exact, so is the search through
  the pods;
* `getParameterValue_exact_iff`: when the value returned is that of the parameter.
-/

namespace Fleetboard.PodCommand

/-! ## The second part of a text -/

/-- What stands between the first equals sign of a text and the next one, or the end. -/
def Field (t v : String) : Prop :=
  ∃ key tail, t.toList = key ++ '=' :: (v.toList ++ tail) ∧ '=' ∉ key ∧ '=' ∉ v.toList ∧
    (tail = [] ∨ ∃ more, tail = '=' :: more)

/-- A text of one part or more, cut at its first equals sign. -/
theorem splitOn_cut (l : List Char) :
    ∃ v tail, l = v ++ tail ∧ '=' ∉ v ∧ (tail = [] ∨ ∃ more, tail = '=' :: more) := by
  by_cases h : '=' ∈ l
  · obtain ⟨v, more, rfl, hv⟩ := List.eq_append_cons_of_mem h
    exact ⟨v, '=' :: more, rfl, hv, .inr ⟨more, rfl⟩⟩
  · exact ⟨l, [], l.append_nil.symm, h, .inl rfl⟩

theorem splitOn_head {v tail : List Char} (hv : '=' ∉ v)
    (htail : tail = [] ∨ ∃ more, tail = '=' :: more) :
    ∃ parts, (v ++ tail).splitOn '=' = v :: parts := by
  rcases htail with rfl | ⟨more, rfl⟩
  · rw [List.append_nil]
    exact ⟨[], List.splitOn_eq_singleton hv⟩
  · exact ⟨_, List.splitOn_append_cons_self_of_not_mem hv more⟩

theorem index_Split_of_field {t v : String} (h : Field t v) : Go.index (Split t '=') 1 = .ok v := by
  obtain ⟨key, tail, ht, hkey, hv, htail⟩ := h
  obtain ⟨parts, hparts⟩ := splitOn_head hv htail
  unfold Split
  rw [ht, List.splitOn_append_cons_self_of_not_mem hkey, hparts, List.map_cons, List.map_cons,
    String.ofList_toList]
  rfl

/-- The second part is the field, and a text that has none has no equals sign. -/
theorem index_Split_iff {t v : String} : Go.index (Split t '=') 1 = .ok v ↔ Field t v := by
  refine ⟨fun h => ?_, index_Split_of_field⟩
  by_cases heq : '=' ∈ t.toList
  · obtain ⟨key, rest, ht, hkey⟩ := List.eq_append_cons_of_mem heq
    obtain ⟨v', tail, rfl, hv', htail⟩ := splitOn_cut rest
    have hfield : Field t (String.ofList v') := by
      refine ⟨key, tail, ?_, hkey, ?_, htail⟩
      · rw [String.toList_ofList]
        exact ht
      · rw [String.toList_ofList]
        exact hv'
    rw [index_Split_of_field hfield] at h
    exact Except.ok.inj h ▸ hfield
  · unfold Split at h
    rw [List.splitOn_eq_singleton heq] at h
    cases h

/-! ## The text that decides -/

/-- The texts that the search looks at, in its order. -/
def texts (args : List String) : List String :=
  args.flatMap fun arg => arg :: if ' ' ∈ arg.toList then Split arg ' ' else []

/-- The first text that starts with the parameter. -/
def deciding (args : List String) (parameter : String) : Option String :=
  (texts args).find? (HasPrefix · parameter)

/-- The value of the text that decides, if there is one. -/
def decided : Option String → Go (Option String)
  | none => .ok none
  | some t => some <$> Go.index (Split t '=') 1

section
variable {parameter : String}

theorem find?_of_hasPrefix {t : String} (ts : List String) (h : HasPrefix t parameter = true) :
    (t :: ts).find? (HasPrefix · parameter) = some t := by
  rw [List.find?_cons, h]

theorem find?_of_not_hasPrefix {t : String} (ts : List String)
    (h : ¬ HasPrefix t parameter = true) :
    (t :: ts).find? (HasPrefix · parameter) = ts.find? (HasPrefix · parameter) := by
  rw [List.find?_cons, Bool.eq_false_iff.mpr h]

theorem wordsValue_eq (words : List String) :
    wordsValue parameter words = decided (words.find? (HasPrefix · parameter)) := by
  induction words with
  | nil => rfl
  | cons w words ih =>
    unfold wordsValue
    by_cases hw : HasPrefix w parameter = true
    · rw [if_pos hw, find?_of_hasPrefix words hw, decided]
    · rw [if_neg hw, find?_of_not_hasPrefix words hw, ih]

/-- The search returns the value of the text that decides, and nothing without one. -/
theorem getParameterValue_eq (args : List String) :
    getParameterValue args parameter = (·.getD "") <$> decided (deciding args parameter) := by
  unfold deciding
  induction args with
  | nil => rfl
  | cons arg args ih =>
    have htexts : texts (arg :: args) =
        arg :: ((if ' ' ∈ arg.toList then Split arg ' ' else []) ++ texts args) := List.flatMap_cons
    rw [htexts]
    unfold getParameterValue
    by_cases harg : HasPrefix arg parameter = true
    · rw [if_pos harg, find?_of_hasPrefix _ harg]
      cases h : Go.index (Split arg '=') 1 with
      | error e => simp only [decided, h]; rfl
      | ok v => simp only [decided, h]; rfl
    · rw [if_neg harg, find?_of_not_hasPrefix _ harg]
      by_cases hspace : ' ' ∈ arg.toList
      · rw [if_pos hspace, if_pos hspace, List.find?_append, wordsValue_eq]
        cases (Split arg ' ').find? (HasPrefix · parameter) with
        | none => exact ih
        | some t =>
          cases h : Go.index (Split t '=') 1 with
          | error e => simp only [decided, h, Option.some_or]; rfl
          | ok v => simp only [decided, h, Option.some_or]; rfl
      · rw [if_neg hspace, if_neg hspace, List.nil_append, ih]

theorem getParameterValue_of_none {args : List String} (h : deciding args parameter = none) :
    getParameterValue args parameter = .ok "" := by
  rw [getParameterValue_eq, h]
  rfl

theorem getParameterValue_of_some {args : List String} {t : String}
    (h : deciding args parameter = some t) :
    getParameterValue args parameter = Go.index (Split t '=') 1 := by
  rw [getParameterValue_eq, h, decided]
  cases Go.index (Split t '=') 1 with
  | error e => rfl
  | ok v => rfl

end

/-! ## Exact values -/

/-- An argument, or a word of one, is the parameter with this value. -/
def Named (args : List String) (parameter value : String) : Prop :=
  ∃ arg ∈ args, arg = parameter ++ "=" ++ value ∨ parameter ++ "=" ++ value ∈ Split arg ' '

instance Named.decidable (args : List String) (parameter value : String) :
    Decidable (Named args parameter value) :=
  inferInstanceAs (Decidable (∃ arg ∈ args, _))

/-- The search does not panic, and a value that it returns is one of the parameter. -/
def Exact (args : List String) (parameter : String) : Prop :=
  ∃ value, getParameterValue args parameter = .ok value ∧
    (value ≠ "" → Named args parameter value)

/-- Where every command line is exact, so is the search through the containers. -/
theorem containersValue_exact {parameter : String} {containers : List Container}
    (h : ∀ c ∈ containers, Exact c.Command parameter ∧ Exact c.Args parameter) :
    ∃ value, containersValue parameter containers = .ok value ∧
      (value ≠ "" →
        ∃ c ∈ containers, Named c.Command parameter value ∨ Named c.Args parameter value) := by
  induction containers with
  | nil => exact ⟨"", rfl, fun hne => absurd rfl hne⟩
  | cons c containers ih =>
    obtain ⟨⟨command, hcommand, hnamed⟩, args, hargs, hnamed'⟩ := h c List.mem_cons_self
    obtain ⟨value, hvalue, hrest⟩ := ih fun c hc => h c (List.mem_cons_of_mem _ hc)
    unfold containersValue
    rw [hcommand, hargs]
    by_cases hc : command = ""
    · by_cases ha : args = ""
      · refine ⟨value, ?_, fun hne => ?_⟩
        · subst hc ha
          exact hvalue
        · obtain ⟨c', hc', hn⟩ := hrest hne
          exact ⟨c', List.mem_cons_of_mem _ hc', hn⟩
      · subst hc
        exact ⟨args, if_pos ha, fun hne => ⟨c, List.mem_cons_self, .inr (hnamed' hne)⟩⟩
    · exact ⟨command, if_pos hc, fun hne => ⟨c, List.mem_cons_self, .inl (hnamed hne)⟩⟩

/-- The flag that is found in the pods is in the command line of one of their containers. -/
theorem FindPodCommandParameter_exact {parameter : String} {pods : List (List Container)}
    (h : ∀ pod ∈ pods, ∀ c ∈ pod, Exact c.Command parameter ∧ Exact c.Args parameter) :
    ∃ value, FindPodCommandParameter (.ok pods) parameter = .ok (.ok value) ∧
      (value ≠ "" → ∃ pod ∈ pods, ∃ c ∈ pod,
        Named c.Command parameter value ∨ Named c.Args parameter value) := by
  have hall : ∀ c ∈ pods.flatten, Exact c.Command parameter ∧ Exact c.Args parameter := by
    intro c hc
    obtain ⟨pod, hpod, hcpod⟩ := List.mem_flatten.mp hc
    exact h pod hpod c hcpod
  obtain ⟨value, hvalue, hnamed⟩ := containersValue_exact hall
  refine ⟨value, ?_, fun hne => ?_⟩
  · show Except.ok <$> containersValue parameter pods.flatten = .ok (.ok value)
    rw [hvalue]
    rfl
  · obtain ⟨c, hc, hn⟩ := hnamed hne
    obtain ⟨pod, hpod, hcpod⟩ := List.mem_flatten.mp hc
    exact ⟨pod, hpod, c, hcpod, hn⟩

theorem Split_of_notMem {arg : String} {sep : Char} (h : sep ∉ arg.toList) : Split arg sep = [arg] := by
  rw [Split, List.splitOn_eq_singleton h, List.map_singleton, String.ofList_toList]

/-- The values of the parameter are in the texts that the search looks at. -/
theorem named_iff {args : List String} {parameter value : String} :
    Named args parameter value ↔ parameter ++ "=" ++ value ∈ texts args := by
  rw [Named, texts, List.mem_flatMap]
  refine exists_congr fun arg => and_congr_right fun _ => ?_
  rw [List.mem_cons, eq_comm]
  by_cases hspace : ' ' ∈ arg.toList
  · rw [if_pos hspace]
  · -- An argument without spaces is its only word.
    rw [if_neg hspace, Split_of_notMem hspace, List.mem_singleton, or_self]
    exact (or_iff_left List.not_mem_nil).symm

/-- The search is exact if and only if the first text that starts with the parameter is the
parameter, an equals sign and a value without one; or its field is empty, so that nothing is
returned; or its field happens to be the value that another text has for the parameter. It is not
if the text has no equals sign, and not if it is a longer flag or has more than one equals sign,
unless one of the other two is the case. -/
theorem getParameterValue_exact_iff (args : List String) (parameter : String) :
    Exact args parameter ↔
      ∀ t, deciding args parameter = some t →
        (∃ value, Field t value ∧ t = parameter ++ "=" ++ value) ∨ Field t "" ∨
          ∃ s ∈ texts args, s ≠ t ∧ ∃ value, Field t value ∧ s = parameter ++ "=" ++ value := by
  constructor
  · rintro ⟨value, hget, hnamed⟩ t ht
    rw [getParameterValue_of_some ht] at hget
    have hfield := index_Split_iff.mp hget
    by_cases hempty : value = ""
    · exact .inr (.inl (hempty ▸ hfield))
    · have hmem := named_iff.mp (hnamed hempty)
      by_cases hself : parameter ++ "=" ++ value = t
      · exact .inl ⟨value, hfield, hself.symm⟩
      · exact .inr (.inr ⟨_, hmem, hself, value, hfield, rfl⟩)
  · intro h
    cases ht : deciding args parameter with
    | none => exact ⟨"", getParameterValue_of_none ht, fun hne => absurd rfl hne⟩
    | some t =>
      have hget : ∀ {value}, Field t value → getParameterValue args parameter = .ok value :=
        fun hfield => (getParameterValue_of_some ht).trans (index_Split_of_field hfield)
      rcases h t ht with ⟨value, hfield, rfl⟩ | hempty | ⟨s, hs, -, value, hfield, rfl⟩
      · exact ⟨value, hget hfield, fun _ => named_iff.mpr (List.mem_of_find?_eq_some ht)⟩
      · exact ⟨"", hget hempty, fun hne => absurd rfl hne⟩
      · exact ⟨value, hget hfield, fun _ => named_iff.mpr hs⟩

/-- A shell's command line, in which the flag is a word. -/
theorem getParameterValue_exact_word :
    Exact ["sh", "-c", "exec kube-proxy --cluster-cidr=10.244.0.0/16 --v=2"] "--cluster-cidr" := by
  refine (getParameterValue_exact_iff _ _).mpr fun t ht => .inl ⟨"10.244.0.0/16", ?_⟩
  have hdec : deciding ["sh", "-c", "exec kube-proxy --cluster-cidr=10.244.0.0/16 --v=2"]
      "--cluster-cidr" = some "--cluster-cidr=10.244.0.0/16" := by decide +kernel
  obtain rfl := Option.some.inj (hdec.symm.trans ht)
  exact ⟨⟨"--cluster-cidr".toList, [], by decide, by decide, by decide, .inl rfl⟩, by decide⟩

theorem not_exact_of_not_named {args : List String} {parameter value : String}
    (h : getParameterValue args parameter = .ok value) (hne : value ≠ "")
    (hnamed : ¬ Named args parameter value) : ¬ Exact args parameter := by
  rintro ⟨value', hget, himp⟩
  rw [h] at hget
  obtain rfl := Except.ok.inj hget
  exact hnamed (himp hne)

/-- A flag without a value panics, a longer flag is taken for the parameter, and a value is
cut off at its equals sign. -/
theorem getParameterValue_inexact :
    getParameterValue ["--cluster-cidr"] "--cluster-cidr" = .error .indexOutOfRange ∧
      (getParameterValue ["--cluster-cidr-mask=24"] "--cluster-cidr" = .ok "24" ∧
        ¬ Exact ["--cluster-cidr-mask=24"] "--cluster-cidr") ∧
      getParameterValue ["--cluster-cidr=a=b"] "--cluster-cidr" = .ok "a" ∧
        ¬ Exact ["--cluster-cidr=a=b"] "--cluster-cidr" := by
  have hlonger : getParameterValue ["--cluster-cidr-mask=24"] "--cluster-cidr" = .ok "24" := by
    decide +kernel
  have hcut : getParameterValue ["--cluster-cidr=a=b"] "--cluster-cidr" = .ok "a" := by
    decide +kernel
  refine ⟨by decide +kernel, ⟨hlonger, ?_⟩, hcut, ?_⟩
  · exact not_exact_of_not_named hlonger (by decide) (by decide +kernel)
  · exact not_exact_of_not_named hcut (by decide) (by decide +kernel)

end Fleetboard.PodCommand
