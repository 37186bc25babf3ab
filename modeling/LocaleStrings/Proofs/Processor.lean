import LocaleStrings.Processor
import LocaleStrings.Proofs.Glob.Matcher
import LocaleStrings.Proofs.Locale.Filter

/-!
# A processor depends on its options as on sets

The locales and the patterns of options may come in any order and any number of times. The filter
keeps its keys as a set, so it is the same; the matcher is another one, which matches the same
paths.

* `Options.SameSets`: options with the same locales and the same patterns;
* `Processor.Agree`: processors that treat every text alike;
* `Processor.agree_of_sameSets`: the processors of such options agree;
* **`Processor.ofOptions_sets`**: such options are refused together or make processors that agree,
  and patterns one behind the other match what either list matches.
-/

namespace LocaleStrings

/-- Options with the same locales and the same patterns, up to order and repetition. -/
structure Options.SameSets (o o' : Options) : Prop where
  locales : Option.Rel (fun ks ks' => ∀ key, key ∈ ks ↔ key ∈ ks') o.locales o'.locales
  resources : ∀ p, p ∈ o.resources ↔ p ∈ o'.resources

theorem Options.SameSets.filter_eq {o o' : Options} (h : SameSets o o') : o.filter = o'.filter := by
  obtain ⟨locales, resources⟩ := o
  obtain ⟨locales', resources'⟩ := o'
  unfold filter
  cases h.locales with
  | none => rfl
  | some hkeys => exact congrArg some (LocaleFilter.ofList_eq_iff.mpr hkeys)

namespace Processor

/-- Processors that have the same resources and read every text alike. -/
structure Agree (p p' : Processor) : Prop where
  isResource : ∀ path, p.isResource path = p'.isResource path
  preProcess : ∀ text path, p.preProcess text path = p'.preProcess text path

theorem agree_component (filter : Option LocaleFilter) {m m' : Glob.Matcher}
    (h : ∀ path, m.isMatch path = m'.isMatch path) :
    Agree (.component filter m) (.component filter m') := by
  have hresource : ∀ path, (component filter m).isResource path
      = (component filter m').isResource path := h
  have hreads : ∀ path, (component filter m).readsAsResource path
      = (component filter m').readsAsResource path
    | none => rfl
    | some path => h path
  refine ⟨hresource, fun text path => ?_⟩
  unfold Processor.preProcess parserFor
  rw [hreads path]

theorem ofOptions_eq_ok_iff {o : Options} {p : Processor} :
    ofOptions o = .ok p ↔ ∃ m, Glob.Matcher.ofPatterns o.resources = .ok m ∧
      p = .component o.filter m := by
  unfold ofOptions
  cases Glob.Matcher.ofPatterns o.resources <;> simp [eq_comm]

theorem agree_of_sameSets {o o' : Options} (h : o.SameSets o') {p p' : Processor}
    (hp : ofOptions o = .ok p) (hp' : ofOptions o' = .ok p') : Agree p p' := by
  obtain ⟨m, hm, rfl⟩ := ofOptions_eq_ok_iff.mp hp
  obtain ⟨m', hm', rfl⟩ := ofOptions_eq_ok_iff.mp hp'
  rw [h.filter_eq]
  exact agree_component _ (Glob.Matcher.isMatch_congr h.resources hm hm')

theorem exists_ofOptions_iff {o : Options} :
    (∃ p, ofOptions o = .ok p) ↔ ∃ m, Glob.Matcher.ofPatterns o.resources = .ok m := by
  constructor
  · rintro ⟨p, hp⟩
    obtain ⟨m, hm, -⟩ := ofOptions_eq_ok_iff.mp hp
    exact ⟨m, hm⟩
  · rintro ⟨m, hm⟩
    exact ⟨_, ofOptions_eq_ok_iff.mpr ⟨m, hm, rfl⟩⟩

theorem exists_refused_iff {o : Options} :
    (∃ e, ofOptions o = .error (.glob e)) ↔ ¬ ∃ p, ofOptions o = .ok p := by
  unfold ofOptions
  cases Glob.Matcher.ofPatterns o.resources <;> simp

/-- **A processor depends on its options as on sets.** Options with the same sets of locales and of
patterns are refused together, or make processors that have the same resources and read every text
alike. Patterns one behind the other can be used exactly if both lists can, and then match what
either list matches. -/
theorem ofOptions_sets :
    (∀ o o' : Options, o.SameSets o' →
      (∃ p p', ofOptions o = .ok p ∧ ofOptions o' = .ok p' ∧ Agree p p') ∨
      ∃ e e', ofOptions o = .error (.glob e) ∧ ofOptions o' = .error (.glob e')) ∧
    ∀ ps qs : List Text,
      ((∃ e, Glob.Matcher.ofPatterns (ps ++ qs) = .error e) ↔
        (∃ e, Glob.Matcher.ofPatterns ps = .error e) ∨
        ∃ e, Glob.Matcher.ofPatterns qs = .error e) ∧
      ∀ m n, Glob.Matcher.ofPatterns ps = .ok m → Glob.Matcher.ofPatterns qs = .ok n →
        ∃ both, Glob.Matcher.ofPatterns (ps ++ qs) = .ok both ∧
          ∀ path, both.isMatch path = true ↔ m.isMatch path = true ∨ n.isMatch path = true := by
  refine ⟨fun o o' h => ?_, fun ps qs => ⟨?_, fun m n hm hn => ?_⟩⟩
  · have hmade : (∃ p, ofOptions o = .ok p) ↔ ∃ p', ofOptions o' = .ok p' := by
      rw [exists_ofOptions_iff, exists_ofOptions_iff]
      exact Glob.Matcher.exists_ofPatterns_congr h.resources
    by_cases hp : ∃ p, ofOptions o = .ok p
    · obtain ⟨p', hp'⟩ := hmade.mp hp
      obtain ⟨p, hp⟩ := hp
      exact .inl ⟨p, p', hp, hp', agree_of_sameSets h hp hp'⟩
    · obtain ⟨e, he⟩ := exists_refused_iff.mpr hp
      obtain ⟨e', he'⟩ := exists_refused_iff.mpr (mt hmade.mpr hp)
      exact .inr ⟨e, e', he, he'⟩
  · exact Glob.Matcher.exists_error_append
  · obtain ⟨both, hboth⟩ := Glob.Matcher.exists_ofPatterns_append.mpr ⟨⟨m, hm⟩, ⟨n, hn⟩⟩
    refine ⟨both, hboth, fun path => ?_⟩
    rw [Glob.Matcher.isMatch_append hm hn hboth path, Bool.or_eq_true]

/-- Options with one of their locales twice. -/
def repeatedLocales : Options :=
  ⟨some ["ja".toList, "en".toList, "ja".toList], ["*.json".toList, "a/**".toList]⟩

/-- The same locales and patterns in another order, with one of the patterns twice. -/
def repeatedPatterns : Options :=
  ⟨some ["en".toList, "ja".toList], ["a/**".toList, "*.json".toList, "*.json".toList]⟩

theorem repeatedLocales_sameSets : repeatedLocales.SameSets repeatedPatterns := by
  refine ⟨.some fun key => ?_, fun p => ?_⟩
  · simp only [List.mem_cons, List.not_mem_nil]
    tauto
  · simp only [repeatedLocales, repeatedPatterns, List.mem_cons, List.not_mem_nil]
    tauto

theorem repeatedLocales_sets :
    repeatedLocales.SameSets repeatedPatterns ∧
    (∃ p p', ofOptions repeatedLocales = .ok p ∧ ofOptions repeatedPatterns = .ok p' ∧
      p.isResource "b.json".toList = true ∧ Agree p p') ∧
    ∃ m n both, Glob.Matcher.ofPatterns ["*.json".toList] = .ok m ∧
      Glob.Matcher.ofPatterns ["a/**".toList] = .ok n ∧
      Glob.Matcher.ofPatterns ["*.json".toList, "a/**".toList] = .ok both ∧
      ∀ path, both.isMatch path = true ↔ m.isMatch path = true ∨ n.isMatch path = true := by
  refine ⟨repeatedLocales_sameSets, ?_, ?_⟩
  · have hm : (Glob.Matcher.ofPatterns repeatedLocales.resources).map (·.isMatch "b.json".toList)
        = .ok true := by
      decide +kernel
    obtain ⟨m, hm, hresource⟩ := Except.exists_of_map_eq_ok hm
    have hp : ofOptions repeatedLocales = .ok (.component repeatedLocales.filter m) :=
      ofOptions_eq_ok_iff.mpr ⟨m, hm, rfl⟩
    rcases ofOptions_sets.1 _ _ repeatedLocales_sameSets with ⟨q, q', hq, hq', hagree⟩ | h
    · obtain rfl := Except.ok.inj (hp.symm.trans hq)
      exact ⟨_, q', hp, hq', hresource, hagree⟩
    · obtain ⟨e, -, he, -⟩ := h
      exact nomatch he.symm.trans hp
  · have hm : (Glob.Matcher.ofPatterns ["*.json".toList]).map (·.isEmpty) = .ok false := by
      decide +kernel
    have hn : (Glob.Matcher.ofPatterns ["a/**".toList]).map (·.isEmpty) = .ok false := by
      decide +kernel
    obtain ⟨m, hm, -⟩ := Except.exists_of_map_eq_ok hm
    obtain ⟨n, hn, -⟩ := Except.exists_of_map_eq_ok hn
    obtain ⟨both, hboth, hmatch⟩ := (ofOptions_sets.2 _ _).2 m n hm hn
    exact ⟨m, n, both, hm, hn, hboth, hmatch⟩

end Processor

end LocaleStrings
