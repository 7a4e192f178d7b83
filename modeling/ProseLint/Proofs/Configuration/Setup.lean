import Mathlib.Data.List.Forall2
import Mathlib.Tactic
import ProseLint.Proofs.Configuration.Requirements

/-!
# Setting up the validators

The registry of the built-in rules finds a constructor under the name of each rule. So it builds and
refuses a node by what the rule requires, and the children of the root one after the other, up to
the first that is refused.
-/
namespace ProseLint

namespace Registry

variable {α : Type} {name key : Text}

theorem lookup_cons_eq_ite (make : α) (entries : List (Text × α)) :
    ((name, make) :: entries).lookup key =
      if key = name then some make else entries.lookup key := by
  by_cases h : key = name
  · simp [h]
  · simp [List.lookup_cons, h, beq_false_of_ne h]

theorem lookup_filter_ne (hkey : key ≠ name) (entries : List (Text × α)) :
    (entries.filter fun entry => entry.1 != name).lookup key = entries.lookup key := by
  induction entries with
  | nil => rfl
  | cons entry entries ih =>
    obtain ⟨k, make⟩ := entry
    by_cases hk : k = name
    · simp [hk, ih, lookup_cons_eq_ite, hkey]
    · simp [hk, ih, lookup_cons_eq_ite]

theorem lookup_eq_none_of_not_mem {entries : List (Text × α)}
    (hkey : key ∉ entries.map Prod.fst) : entries.lookup key = none := by
  rw [List.lookup_eq_none_iff]
  intro entry hentry
  have hne : key ≠ entry.1 := fun h => hkey (h ▸ List.mem_map_of_mem hentry)
  simpa using hne

theorem find?_register (r : Registry) (make : Constructor) :
    (r.register name make).find? key = if key = name then some make else r.find? key := by
  simp only [find?, register, List.lookup_append, lookup_cons_eq_ite, List.lookup_nil]
  by_cases hkey : key = name
  · have hnone : (r.constructors.filter fun entry => entry.1 != name).lookup key = none :=
      lookup_eq_none_of_not_mem (by simp [hkey])
    rw [hnone, if_pos hkey, if_pos hkey, Option.none_or]
  · rw [lookup_filter_ne hkey, if_neg hkey, if_neg hkey, Option.or_none]

/-- Constructors registered under different names are found under these. -/
theorem find?_foldl_register (entries : List (Text × Constructor)) (r : Registry)
    (hnodup : (entries.map Prod.fst).Nodup) :
    (entries.foldl (fun r entry => r.register entry.1 entry.2) r).find? key =
      (entries.lookup key).or (r.find? key) := by
  induction entries generalizing r with
  | nil => simp
  | cons entry entries ih =>
    obtain ⟨name, make⟩ := entry
    obtain ⟨hname, hrest⟩ := List.nodup_cons.mp hnodup
    rw [List.foldl_cons, ih _ hrest, find?_register, lookup_cons_eq_ite]
    by_cases hkey : key = name
    · have hnone : entries.lookup key = none := lookup_eq_none_of_not_mem (hkey ▸ hname)
      rw [hnone, if_pos hkey, if_pos hkey, Option.none_or, Option.some_or]
    · rw [if_neg hkey, if_neg hkey]

theorem lookup_eq_some_iff_mem {entries : List (Text × α)} (hnodup : (entries.map Prod.fst).Nodup)
    (value : α) : entries.lookup key = some value ↔ (key, value) ∈ entries := by
  induction entries with
  | nil => simp
  | cons entry entries ih =>
    obtain ⟨name, other⟩ := entry
    obtain ⟨hname, hrest⟩ := List.nodup_cons.mp hnodup
    rw [lookup_cons_eq_ite, List.mem_cons, Prod.mk.injEq]
    by_cases hkey : key = name
    · subst hkey
      have hnot : (key, value) ∉ entries := fun h => hname (List.mem_map.mpr ⟨_, h, rfl⟩)
      simp [hnot, eq_comm]
    · simp [hkey, ih hrest]

/-- What the built-in rules are registered with. -/
inductive Registered : Text → Constructor → Prop
  | limit (r : LimitRule) (known : r ∈ limitRules) :
      Registered r.name (limited r.parameter r.default r.validator)
  | table (r : TableRule) (known : r ∈ tableRules) : Registered r.name (tabled r.name r.validator)
  | words : Registered wordRule wordList
  | start : Registered startRule paragraphStart

theorem registered_iff (make : Constructor) : Registered key make ↔
    (∃ r ∈ limitRules, key = r.name ∧ make = limited r.parameter r.default r.validator) ∨
    (∃ r ∈ tableRules, key = r.name ∧ make = tabled r.name r.validator) ∨
    (key = wordRule ∧ make = wordList) ∨ (key = startRule ∧ make = paragraphStart) := by
  constructor
  · rintro (⟨r, hr⟩ | ⟨r, hr⟩ | _ | _)
    · exact .inl ⟨r, hr, rfl, rfl⟩
    · exact .inr (.inl ⟨r, hr, rfl, rfl⟩)
    · exact .inr (.inr (.inl ⟨rfl, rfl⟩))
    · exact .inr (.inr (.inr ⟨rfl, rfl⟩))
  · rintro (⟨r, hr, rfl, rfl⟩ | ⟨r, hr, rfl, rfl⟩ | ⟨rfl, rfl⟩ | ⟨rfl, rfl⟩)
    · exact .limit r hr
    · exact .table r hr
    · exact .words
    · exact .start

theorem mem_builtins_iff (make : Constructor) : (key, make) ∈ builtins ↔ Registered key make := by
  -- The list of the registry goes by the scope of the rules, the lists here by what they need.
  have horder : ∀ a b c d e f g h i j : Prop, (a ∨ b ∨ c ∨ d ∨ e ∨ f ∨ g ∨ h ∨ i ∨ j ↔
      a ∨ b ∨ c ∨ g ∨ h ∨ j ∨ d ∨ e ∨ f ∨ i) := by
    intros
    exact Iff.of_eq (by ac_rfl)
  rw [registered_iff]
  simp only [builtins, limitRules, tableRules, List.mem_cons, Prod.mk.injEq, List.not_mem_nil,
    or_false, exists_eq_or_imp, exists_eq_left, or_assoc]
  exact horder _ _ _ _ _ _ _ _ _ _

theorem find?_withBuiltins_eq_some_iff (make : Constructor) :
    withBuiltins.find? key = some make ↔ Registered key make := by
  have hnodup : (builtins.map Prod.fst).Nodup := by decide
  rw [withBuiltins, registerBuiltins, find?_foldl_register builtins {} hnodup, find?,
    List.lookup_nil, Option.or_none, lookup_eq_some_iff_mem hnodup, mem_builtins_iff]

theorem exists_registered_iff : (∃ make, Registered key make) ↔ key ∈ ruleNames := by
  simp only [ruleNames, List.mem_append, List.mem_map, List.mem_cons, List.not_mem_nil, or_false]
  constructor
  · rintro ⟨make, hmake⟩
    rcases hmake with ⟨r, hr⟩ | ⟨r, hr⟩ | _ | _
    · exact .inl (.inl ⟨r, hr, rfl⟩)
    · exact .inl (.inr ⟨r, hr, rfl⟩)
    · exact .inr (.inl rfl)
    · exact .inr (.inr rfl)
  · rintro ((⟨r, hr, rfl⟩ | ⟨r, hr, rfl⟩) | rfl | rfl)
    · exact ⟨_, .limit r hr⟩
    · exact ⟨_, .table r hr⟩
    · exact ⟨_, .words⟩
    · exact ⟨_, .start⟩

section
variable {resources : Resources} {node : ConfigNode}

theorem create_of_registered {make : Constructor} (hname : node.name = key)
    (h : Registered key make) : (withBuiltins.create node resources).1 = make node resources := by
  rw [create, hname, (find?_withBuiltins_eq_some_iff make).mpr h]
  cases hmake : make node resources <;> simp only [hmake]

theorem create_of_unknown (h : node.name ∉ ruleNames) :
    (withBuiltins.create node resources).1 = .error (.unknownValidator node.name) := by
  have hnone : withBuiltins.find? node.name = none := by
    by_contra hsome
    obtain ⟨make, hmake⟩ := Option.ne_none_iff_exists'.mp hsome
    exact h (exists_registered_iff.mp ⟨make, (find?_withBuiltins_eq_some_iff make).mp hmake⟩)
  rw [create, hnone]

/-- The error of a refused node. -/
theorem create_of_refused {e : ConfigError} (h : Refused resources node e) :
    (withBuiltins.create node resources).1 = .error e := by
  cases h with
  | unknown name => exact create_of_unknown name
  | number r known name value present bad =>
    have hnone : parseNumber? (Text.trim value) = none := by
      by_contra hsome
      obtain ⟨n, hn⟩ := Option.ne_none_iff_exists'.mp hsome
      exact bad n ((parseNumber?_eq_some_iff _ n).mp hn)
    simp only [create_of_registered name (.limit r known), limited, ConfigNode.numberOr, present,
      hnone]
  | table r known name absent =>
    simp only [create_of_registered name (.table r known), tabled, absent, name]
  | noList name absent =>
    simp only [create_of_registered name .words, wordList, ConfigNode.required, absent]
  | blankList name list present blank =>
    simp only [create_of_registered name .words, wordList, ConfigNode.required, present,
      (isEmpty_normalize_iff list).mpr blank, if_true]

/-- The validator of a node that has what its rule asks for. -/
theorem create_of_built {v : Validator} (h : Built resources node v) :
    (withBuiltins.create node resources).1 = .ok v := by
  cases h with
  | default r known name absent =>
    simp only [create_of_registered name (.limit r known), limited, ConfigNode.numberOr, absent]
  | limit r known name value n present number =>
    simp only [create_of_registered name (.limit r known), limited, ConfigNode.numberOr, present,
      (parseNumber?_eq_some_iff _ n).mpr number]
  | table r known name table present =>
    simp only [create_of_registered name (.table r known), tabled, present]
  | words name list present word =>
    have hwords : ¬ (Rule.InvalidWord.normalize (Text.splitOn ',' list)).isEmpty = true :=
      fun h => (isEmpty_normalize_iff list).mp h word
    simp only [create_of_registered name .words, wordList, ConfigNode.required, present,
      if_neg hwords]
  | start name => exact create_of_registered name .start

theorem exists_built (h : Meets resources node) : ∃ v, Built resources node v := by
  obtain ⟨make, hmake⟩ := exists_registered_iff.mpr h.known
  rcases (registered_iff make).mp hmake with
    ⟨r, known, name, -⟩ | ⟨r, known, name, -⟩ | ⟨name, -⟩ | ⟨name, -⟩
  · cases hvalue : node.attribute? r.parameter with
    | none => exact ⟨_, .default r known name hvalue⟩
    | some value =>
      obtain ⟨n, hn⟩ := h.number r known name value hvalue
      exact ⟨_, .limit r known name value n hvalue hn⟩
  · obtain ⟨table, htable⟩ := Option.ne_none_iff_exists'.mp (h.table r known name)
    exact ⟨_, .table r known name table htable⟩
  · obtain ⟨list, hlist, hword⟩ := h.words name
    exact ⟨_, .words name list hlist hword⟩
  · exact ⟨_, .start name⟩

theorem create_eq_ok_iff {v : Validator} :
    (withBuiltins.create node resources).1 = .ok v ↔ Built resources node v := by
  refine ⟨fun h => ?_, create_of_built⟩
  by_cases hmeets : Meets resources node
  · obtain ⟨v', hv'⟩ := exists_built hmeets
    rw [create_of_built hv', Except.ok.injEq] at h
    exact h ▸ hv'
  · obtain ⟨e, he⟩ := (exists_refused_iff resources node).mpr hmeets
    rw [create_of_refused he] at h
    cases h

theorem create_eq_error_iff {e : ConfigError} :
    (withBuiltins.create node resources).1 = .error e ↔ Refused resources node e := by
  refine ⟨fun h => ?_, create_of_refused⟩
  by_cases hmeets : Meets resources node
  · obtain ⟨v, hv⟩ := exists_built hmeets
    rw [create_of_built hv] at h
    cases h
  · obtain ⟨e', he'⟩ := (exists_refused_iff resources node).mpr hmeets
    rw [create_of_refused he', Except.error.injEq] at h
    exact h ▸ he'

theorem exists_built_iff : (∃ v, Built resources node v) ↔ Meets resources node := by
  refine ⟨fun ⟨v, hv⟩ => ?_, exists_built⟩
  by_contra hmeets
  obtain ⟨e, he⟩ := (exists_refused_iff resources node).mpr hmeets
  rw [← create_eq_ok_iff, create_of_refused he] at hv
  cases hv

/-- A built-in rule reads the name of its node, the attributes and nothing else. -/
theorem create_congr {node' : ConfigNode} (hname : node'.name = node.name)
    (hattributes : node'.attributes = node.attributes) :
    withBuiltins.create node' resources = withBuiltins.create node resources := by
  have hattribute : ∀ key, node'.attribute? key = node.attribute? key := fun key => by
    rw [ConfigNode.attribute?, hattributes, ConfigNode.attribute?]
  have hmake : ∀ make, Registered node.name make → make node' resources = make node resources := by
    intro make h
    rcases (registered_iff make).mp h with
      ⟨r, -, -, rfl⟩ | ⟨r, -, -, rfl⟩ | ⟨-, rfl⟩ | ⟨-, rfl⟩
    · simp only [limited, ConfigNode.numberOr, hattribute, hname]
    · rfl
    · simp only [wordList, ConfigNode.required, hattribute, hname]
    · simp only [paragraphStart, ConfigNode.textOr, hattribute]
  rw [create, create, hname]
  cases hfind : withBuiltins.find? node.name with
  | none => rfl
  | some make => simp only [hmake make ((find?_withBuiltins_eq_some_iff make).mp hfind)]

end

variable {resources : Resources}

theorem createAll_cons_eq_ok_iff (r : Registry) (node : ConfigNode) (rest : List ConfigNode)
    (vs : List Validator) :
    (r.createAll resources (node :: rest)).1 = .ok vs ↔
      ∃ v ws, (r.create node resources).1 = .ok v ∧ (r.createAll resources rest).1 = .ok ws ∧
        vs = v :: ws := by
  rw [createAll]
  rcases r.create node resources with ⟨e | v, log⟩
  · simp
  · rcases r.createAll resources rest with ⟨e | ws, log'⟩ <;> simp [eq_comm]

theorem createAll_cons_eq_error_iff (r : Registry) (node : ConfigNode) (rest : List ConfigNode)
    (e : ConfigError) :
    (r.createAll resources (node :: rest)).1 = .error e ↔
      (r.create node resources).1 = .error e ∨
        (∃ v, (r.create node resources).1 = .ok v) ∧ (r.createAll resources rest).1 = .error e := by
  rw [createAll]
  rcases r.create node resources with ⟨e | v, log⟩
  · simp
  · rcases r.createAll resources rest with ⟨e | ws, log'⟩ <;> simp

/-- All validators are there when each node has got its own. -/
theorem createAll_eq_ok_iff (r : Registry) (nodes : List ConfigNode) (vs : List Validator) :
    (r.createAll resources nodes).1 = .ok vs ↔
      List.Forall₂ (fun node v => (r.create node resources).1 = .ok v) nodes vs := by
  induction nodes generalizing vs with
  | nil => simp [createAll, eq_comm]
  | cons node rest ih =>
    simp only [createAll_cons_eq_ok_iff, List.forall₂_cons_left_iff, ih]

/-- The error is that of the first node without a validator. -/
theorem createAll_eq_error_iff (r : Registry) (nodes : List ConfigNode) (e : ConfigError) :
    (r.createAll resources nodes).1 = .error e ↔
      ∃ ready failing rest, nodes = ready ++ failing :: rest ∧
        (∀ node ∈ ready, ∃ v, (r.create node resources).1 = .ok v) ∧
        (r.create failing resources).1 = .error e := by
  induction nodes with
  | nil => simp [createAll]
  | cons node rest ih =>
    rw [createAll_cons_eq_error_iff, ih]
    constructor
    · rintro (hnode | ⟨hnode, ready, failing, rest, rfl, hready, hfailing⟩)
      · exact ⟨[], node, rest, rfl, by simp, hnode⟩
      · have hready : ∀ n ∈ node :: ready, _ := List.forall_mem_cons.mpr ⟨hnode, hready⟩
        exact ⟨node :: ready, failing, rest, rfl, hready, hfailing⟩
    · rintro ⟨_ | ⟨first, ready⟩, failing, later, hnodes, hready, hfailing⟩
      · obtain ⟨rfl, rfl⟩ := List.cons.inj hnodes
        exact .inl hfailing
      · obtain ⟨rfl, rfl⟩ := List.cons.inj hnodes
        obtain ⟨hfirst, hready⟩ := List.forall_mem_cons.mp hready
        exact .inr ⟨hfirst, ready, failing, later, rfl, hready, hfailing⟩

theorem createAll_congr {nodes nodes' : List ConfigNode}
    (h : nodes'.map (fun node => (node.name, node.attributes)) =
      nodes.map fun node => (node.name, node.attributes)) :
    withBuiltins.createAll resources nodes' = withBuiltins.createAll resources nodes := by
  induction nodes' generalizing nodes with
  | nil =>
    rw [List.map_nil, eq_comm, List.map_eq_nil_iff] at h
    rw [h]
  | cons node' rest' ih =>
    obtain ⟨node, rest, rfl, hnode, hrest⟩ := List.map_eq_cons_iff.mp h.symm
    obtain ⟨hname, hattributes⟩ := Prod.mk.inj hnode
    rw [createAll, createAll, create_congr hname.symm hattributes.symm, ih hrest.symm]

theorem exists_forall₂_iff {α β : Type} {R : α → β → Prop} (as : List α) :
    (∃ bs, List.Forall₂ R as bs) ↔ ∀ a ∈ as, ∃ b, R a b := by
  induction as with
  | nil => simp
  | cons a as ih =>
    rw [List.forall_mem_cons, ← ih]
    constructor
    · rintro ⟨bs, h⟩
      obtain ⟨b, rest, hb, hrest, rfl⟩ := List.forall₂_cons_left_iff.mp h
      exact ⟨⟨b, hb⟩, rest, hrest⟩
    · rintro ⟨⟨b, hb⟩, rest, hrest⟩
      exact ⟨b :: rest, .cons hb hrest⟩

/-- A configuration succeeds when every child of its root brings what its rule asks for. Then each
child has got the validator of its rule, in declaration order. Otherwise the error is that of the
first child that is turned down. The nodes below the children play no part. -/
theorem configure_withBuiltins (c : Configuration) (resources : Resources) :
    ((∃ vs, (withBuiltins.configure c resources).1 = .ok vs) ↔
      ∀ node ∈ c.validators, Meets resources node) ∧
    (∀ vs, (withBuiltins.configure c resources).1 = .ok vs ↔
      List.Forall₂ (Built resources) c.validators vs) ∧
    (∀ e, (withBuiltins.configure c resources).1 = .error e ↔
      ∃ ready failing rest, c.validators = ready ++ failing :: rest ∧
        (∀ node ∈ ready, Meets resources node) ∧ ¬ Meets resources failing ∧
        Refused resources failing e) ∧
    ∀ c' : Configuration,
      c'.validators.map (fun node => (node.name, node.attributes)) =
        c.validators.map (fun node => (node.name, node.attributes)) →
      withBuiltins.configure c' resources = withBuiltins.configure c resources := by
  have hresult : (withBuiltins.configure c resources).1 =
      (withBuiltins.createAll resources c.validators).1 := by
    rw [configure]
    rcases withBuiltins.createAll resources c.validators with ⟨e | vs, log⟩ <;> rfl
  have hok : ∀ vs, (withBuiltins.configure c resources).1 = .ok vs ↔
      List.Forall₂ (Built resources) c.validators vs := fun vs => by
    simp only [hresult, createAll_eq_ok_iff, create_eq_ok_iff]
  have herror : ∀ e, (withBuiltins.configure c resources).1 = .error e ↔
      ∃ ready failing rest, c.validators = ready ++ failing :: rest ∧
        (∀ node ∈ ready, Meets resources node) ∧ ¬ Meets resources failing ∧
        Refused resources failing e := fun e => by
    have hfails : ∀ node, Refused resources node e ↔
        ¬ Meets resources node ∧ Refused resources node e := fun node =>
      ⟨fun h => ⟨(exists_refused_iff resources node).mp ⟨e, h⟩, h⟩, And.right⟩
    simp only [hresult, createAll_eq_error_iff, create_eq_ok_iff, exists_built_iff,
      create_eq_error_iff, ← hfails]
  refine ⟨?_, hok, herror, ?_⟩
  · simp only [hok, exists_forall₂_iff, exists_built_iff]
  · intro c' h
    rw [configure, configure, createAll_congr h]

/-- The blanks around a limit, its sign and its zeros do not count, nor does an unknown rule below
the child of the root. -/
theorem configure_withBuiltins_of_signed_limit :
    let c := (((Configuration.ofRoot "Validator".toList).addChild 0
      "SentenceLength".toList).addChild 1 "Unknown".toList).setAttribute 1
        "max_length".toList " +042\t".toList
    (withBuiltins.configure c {}).1 = .ok [Rule.SentenceLength.validator 42] := by
  intro c
  have hchild : c.validators = [⟨"SentenceLength".toList,
      [("max_length".toList, " +042\t".toList)], some 0, [2]⟩] := by decide
  have hdigits : ∀ d ∈ "042".toList, d.isDigit = true := List.all_eq_true.mp rfl
  have hnumeral : Numeral (Text.trim " +042\t".toList) 42 :=
    ⟨"042".toList, .inr (by decide), by decide, hdigits, by decide, by decide⟩
  rw [(configure_withBuiltins c {}).2.1, hchild]
  exact .cons (.limit ⟨"SentenceLength".toList, "max_length".toList, 30, _⟩ (.head _) rfl _ 42 rfl
    hnumeral) .nil

end Registry

end ProseLint
