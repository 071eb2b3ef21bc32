/-
The ways in which patterns reach a filter.

Patterns come as a list, as one text with commas, or from the settings, which
know one text only. All of these are cleaned: what is kept is the items that
are not blank, in their order, each without the white space around it
(`forall₂_clean`), and texts without commas are got back from the text they
were joined to (`ofText_joined`). So the same texts make the same filter
(`Given.ofOptions_eq`).

A filter writes its patterns as lists, and lists are cleaned when they are
read again. It is therefore reproduced from its own options exactly if its
patterns are clean already (`ofOptions_toOptions_iff`). Not every filter is
like that: the items of a set, or of an object that can be walked through,
are taken as they are (`Takes`, `ofValue_cases`). There is no other way for a
pattern with white space around it, or for a blank one, to get in (`LooseAt`,
`patternOption_isPattern_iff`).
-/
import AuditTrail.Proofs.Text.Blank
import AuditTrail.Proofs.Text.Pieces
import AuditTrail.Settings.Basic
import Mathlib.Data.List.Forall2

namespace AuditTrail

variable {L ps : List Text} {name p : Text}

-- =============================================================== patterns

/-- A pattern that cleaning leaves as it is. -/
structure IsPattern (p : Text) : Prop where
  ne_nil : p ≠ []
  trimmed : p.IsTrimmed

namespace Patterns

theorem isPattern_of_mem_clean (hp : p ∈ clean L) : IsPattern p := by
  obtain ⟨hmem, hne⟩ := List.mem_filter.mp hp
  obtain ⟨s, -, rfl⟩ := List.mem_map.mp hmem
  exact ⟨by simpa using hne, (Text.strips_trim s).1⟩

theorem clean_eq_self_iff : clean ps = ps ↔ ∀ p ∈ ps, IsPattern p := by
  constructor
  · intro h p hp
    rw [← h] at hp
    exact isPattern_of_mem_clean hp
  · intro h
    have htrim : ps.map Text.trim = ps :=
      (List.map_congr_left fun p hp =>
        Text.trim_eq_self_iff.mpr (h p hp).trimmed).trans (List.map_id ps)
    unfold clean
    rw [htrim]
    exact List.filter_eq_self.mpr fun p hp => by simpa using (h p hp).ne_nil

/-- The items that are not blank are kept, in their order and without the
white space around them. -/
theorem forall₂_clean (L : List Text) :
    List.Forall₂ Text.Strips (L.filter fun s => !s.isAllBlank) (clean L) := by
  induction L with
  | nil => exact .nil
  | cons s L ih =>
      unfold clean at ih ⊢
      rw [List.map_cons, List.filter_cons, List.filter_cons]
      by_cases hblank : s.isAllBlank = true
      · rw [hblank, Text.trim_eq_nil_iff.mpr hblank]
        exact ih
      · have hne : s.trim ≠ [] := mt Text.trim_eq_nil_iff.mp hblank
        rw [if_pos (by simpa using hblank), if_pos (by simpa using hne)]
        exact .cons (Text.strips_trim s) ih

/-- Texts without commas are the pieces of what they are joined to, and the
one piece of an empty text is blank. -/
theorem ofText_joined (hL : ∀ s ∈ L, ',' ∉ s) :
    ofText (Text.joinWith [','] L) = clean L := by
  cases L with
  | nil => rfl
  | cons s L =>
      unfold ofText
      rw [Text.splitAt_joinWith hL (List.cons_ne_nil s L)]

/-- Texts can be written out. -/
theorem findSome?_plainSilence?_texts (L : List Text) :
    (L.map Value.text).findSome? Value.plainSilence? = none :=
  List.findSome?_eq_none_iff.mpr (List.forall_mem_map.mpr fun _ _ => rfl)

theorem ofValue_list (location : Text) (L : List Text) :
    ofValue location (.of (.list (L.map .text))) = .ok (clean L) := by
  have htexts : (L.map Value.text).map Value.plain = L := by
    rw [List.map_map]
    exact List.map_id L
  have helements : (Value.list (L.map .text)).elements = L.map .text := rfl
  unfold ofValue Value.Unfolded.of
  simp only [helements, findSome?_plainSilence?_texts, htexts]

/-- A value whose items are taken as they are: a set, or an object that can
be walked through to the end. -/
inductive Takes (v : Value.Unfolded) : List Value → Prop
  | set {items : List Value} (hwhole : v.whole = .set items) :
      Takes v v.elements
  | foreign {o : Foreign} {parts : Value.Entries}
      (hwhole : v.whole = .foreign o parts) (hwalk : o.walkable = true) :
      Takes v (parts.map fun p => .tuple [p.1, p.2])
  | agent {c : Conduct} {items : List Value}
      (hwhole : v.whole = .agent c items) (hwalk : c.walk = .whole) :
      Takes v items

theorem Takes.unique {v : Value.Unfolded} {vs ws : List Value}
    (hv : Takes v vs) (hw : Takes v ws) : vs = ws := by
  cases hv with
  | set hwhole =>
      cases hw with
      | set => rfl
      | foreign hother
      | agent hother => cases hwhole.symm.trans hother
  | foreign hwhole =>
      cases hw with
      | foreign hother =>
          cases hwhole.symm.trans hother
          rfl
      | set hother
      | agent hother => cases hwhole.symm.trans hother
  | agent hwhole =>
      cases hw with
      | agent hother =>
          cases hwhole.symm.trans hother
          rfl
      | set hother
      | foreign hother => cases hwhole.symm.trans hother

/-- The text that such an item is taken for. -/
def itemText? (v : Value) : Option Text :=
  match v.text?, v with
  | some s, _ => some s
  | none, .bytes octets => (Utf8.decode octets).toOption
  | none, _ => none

theorem itemText?_of_text? {v : Value} {s : Text} (h : v.text? = some s) :
    itemText? v = some s := by
  unfold itemText?
  rw [h]

/-- Each of the items is taken for a text. -/
theorem ofItems_eq {location : Text} {index : Nat} {vs : List Value}
    {texts : List Text} (h : ofItems location index vs = (texts, [])) :
    vs.map itemText? = texts.map some := by
  induction vs generalizing index texts with
  | nil =>
      cases h
      rfl
  | cons v vs ih =>
      obtain ⟨texts', issues, hrest⟩ :
          ∃ texts' issues, ofItems location (index + 1) vs = (texts', issues) :=
        ⟨_, _, rfl⟩
      unfold ofItems at h
      rw [hrest] at h
      dsimp only at h
      split at h
      case h_1 s hs =>
        cases h
        rw [List.map_cons, itemText?_of_text? hs, ih hrest, List.map_cons]
      case h_2 octets _ =>
        split at h
        case h_1 s hs =>
          cases h
          have hitem : itemText? (.bytes octets) = some s :=
            congrArg Except.toOption hs
          rw [List.map_cons, hitem, ih hrest, List.map_cons]
        case h_2 => cases h
      case h_3 => cases h

section Cases

variable {location : Text} {v : Value.Unfolded}

/-- The patterns are texts that were cleaned. -/
def Cleaned (location : Text) (v : Value.Unfolded) : Prop :=
  ∃ L, ofValue location v = .ok (clean L) ∧ ∀ items, ¬ Takes v items

/-- The patterns are the items of a value, as they are. -/
def TakenAsIs (location : Text) (v : Value.Unfolded) : Prop :=
  ∃ items texts, ofValue location v = .ok texts ∧ Takes v items
    ∧ items.map itemText? = texts.map some

/-- There are complaints. -/
def Refused (location : Text) (v : Value.Unfolded) : Prop :=
  ∃ issues, ofValue location v = .error issues ∧ issues ≠ []

theorem not_takes (hset : ∀ items, v.whole ≠ .set items)
    (hforeign : ∀ o parts, v.whole ≠ .foreign o parts)
    (hagent : ∀ c items, v.whole ≠ .agent c items) (items : List Value) :
    ¬ Takes v items := by
  intro h
  cases h with
  | set hwhole => exact hset _ hwhole
  | foreign hwhole => exact hforeign _ _ hwhole
  | agent hwhole => exact hagent _ _ hwhole

theorem takenItems_eq {items : List Value} (hv : Takes v items) :
    takenItems location v = .ok items := by
  obtain ⟨whole, elements⟩ := v
  cases hv with
  | set hwhole =>
      obtain rfl : whole = _ := hwhole
      rfl
  | @foreign o parts hwhole hwalk =>
      obtain rfl : whole = _ := hwhole
      have hitems : (Value.foreign o parts).items?
          = some (parts.map fun p => .tuple [p.1, p.2]) := if_pos hwalk
      unfold takenItems
      dsimp only
      rw [hitems]
  | @agent c items hwhole hwalk =>
      obtain rfl : whole = _ := hwhole
      have hitems : (Value.agent c items).items? = some items := by
        rw [Value.items?, hwalk]
      unfold takenItems
      dsimp only
      rw [hitems]

/-- Any other object is refused. -/
theorem takenItems_of_not_takes (hobject : (∃ o parts, v.whole = .foreign o parts)
      ∨ ∃ c items, v.whole = .agent c items)
    (hnot : ∀ items, ¬ Takes v items) :
    ∃ i, takenItems location v = .error [i] := by
  obtain ⟨whole, elements⟩ := v
  rcases hobject with ⟨o, parts, hwhole⟩ | ⟨c, items, hwhole⟩
  · obtain rfl : whole = _ := hwhole
    have hitems : (Value.foreign o parts).items? = none :=
      if_neg fun hwalk => hnot _ (.foreign rfl hwalk)
    unfold takenItems
    dsimp only
    rw [hitems]
    exact ⟨_, rfl⟩
  · obtain rfl : whole = _ := hwhole
    have hitems : (Value.agent c items).items? = none := by
      rw [Value.items?]
      split
      case h_1 hwalk => exact absurd (.agent rfl hwalk) (hnot items)
      case h_2 => rfl
    unfold takenItems
    dsimp only
    rw [hitems]
    cases (Value.agent c items).broken? with
    | none => exact ⟨_, rfl⟩
    | some p => exact ⟨_, rfl⟩

theorem takenAsIs_or_refused {items : List Value} (hv : Takes v items)
    (h : ofValue location v = (do
      let items ← takenItems location v
      match ofItems location 0 items with
      | (texts, []) => .ok texts
      | (_, issues) => .error issues)) :
    TakenAsIs location v ∨ Refused location v := by
  rw [takenItems_eq hv] at h
  cases hitems : ofItems location 0 items with
  | mk texts issues =>
      cases issues with
      | nil =>
          refine .inl ⟨items, texts, h.trans ?_, hv, ofItems_eq hitems⟩
          simp only [bind, Except.bind, hitems]
      | cons i issues =>
          refine .inr ⟨i :: issues, h.trans ?_, List.cons_ne_nil _ _⟩
          simp only [bind, Except.bind, hitems]

/-- Whether an object is taken as it is depends on the walk through it. -/
theorem takenAsIs_or_refused_of_object
    (hobject : (∃ o parts, v.whole = .foreign o parts)
      ∨ ∃ c items, v.whole = .agent c items)
    (h : ofValue location v = (do
      let items ← takenItems location v
      match ofItems location 0 items with
      | (texts, []) => .ok texts
      | (_, issues) => .error issues)) :
    TakenAsIs location v ∨ Refused location v := by
  by_cases htakes : ∃ items, Takes v items
  · obtain ⟨items, hitems⟩ := htakes
    exact takenAsIs_or_refused hitems h
  · obtain ⟨i, hi⟩ : ∃ i, takenItems location v = .error [i] :=
      takenItems_of_not_takes hobject (not_exists.mp htakes)
    rw [hi] at h
    exact .inr ⟨[i], h, List.cons_ne_nil _ _⟩

/-- The items of a list are cleaned if they can be written out. -/
theorem cleaned_or_refused (hnot : ∀ items, ¬ Takes v items)
    {issues : Value.Silence → List Issue} (hissues : ∀ s, issues s ≠ [])
    (h : ofValue location v
      = match v.elements.findSome? Value.plainSilence? with
        | some s => .error (issues s)
        | none => .ok (clean (v.elements.map Value.plain))) :
    Cleaned location v ∨ Refused location v := by
  cases hsilent : v.elements.findSome? Value.plainSilence? with
  | some s =>
      rw [hsilent] at h
      exact .inr ⟨issues s, h, hissues s⟩
  | none =>
      rw [hsilent] at h
      exact .inl ⟨_, h, hnot⟩

/-- There is no other way for a value to end. -/
theorem ofValue_cases (location : Text) (v : Value.Unfolded) :
    Cleaned location v ∨ TakenAsIs location v ∨ Refused location v := by
  obtain ⟨whole, elements⟩ := v
  cases whole with
  | null => exact .inl ⟨[], rfl, not_takes nofun nofun nofun⟩
  | text s
  | term t => exact .inl ⟨_, rfl, not_takes nofun nofun nofun⟩
  | list items
  | tuple items =>
      refine (cleaned_or_refused ?_
        (fun _ => List.cons_ne_nil _ _) rfl).imp_right .inr
      exact not_takes nofun nofun nofun
  | set items => exact .inr (takenAsIs_or_refused (.set rfl) rfl)
  | foreign o parts =>
      exact .inr (takenAsIs_or_refused_of_object (.inl ⟨o, parts, rfl⟩) rfl)
  | agent c items =>
      exact .inr (takenAsIs_or_refused_of_object (.inr ⟨c, items, rfl⟩) rfl)
  | bool
  | int
  | float
  | bytes
  | map
  | date
  | dateTime
  | cycle => exact .inr (.inr ⟨_, rfl, List.cons_ne_nil _ _⟩)

end Cases

/-- A value with an item that is taken as it is and that cleaning would
change. -/
def IsLoose (v : Value.Unfolded) : Prop :=
  ∃ items, Takes v items
    ∧ ∃ item ∈ items, ∃ s, itemText? item = some s ∧ ¬ IsPattern s

/-- Only such a value has patterns that are not clean. -/
theorem ofValue_isPattern_iff {location : Text} {v : Value.Unfolded}
    (h : ofValue location v = .ok ps) :
    (∀ p ∈ ps, IsPattern p) ↔ ¬ IsLoose v := by
  rcases ofValue_cases location v with
    ⟨L, hok, hnot⟩ | ⟨items, texts, hok, htakes, hitems⟩ | ⟨issues, herror, -⟩
  · obtain rfl := Except.ok.inj (h.symm.trans hok)
    exact iff_of_true (fun p => isPattern_of_mem_clean)
      fun ⟨items, htakes, _⟩ => hnot items htakes
  · obtain rfl := Except.ok.inj (h.symm.trans hok)
    have hmem (s : Text) :
        (∃ item ∈ items, itemText? item = some s) ↔ s ∈ ps := by
      rw [← List.mem_map, hitems]
      simp
    constructor
    · rintro hall ⟨items', htakes', item, hitem, s, hs, hnot⟩
      obtain rfl := htakes.unique htakes'
      exact hnot (hall s ((hmem s).mp ⟨item, hitem, hs⟩))
    · intro hloose s hs
      by_contra hnot
      obtain ⟨item, hitem, htext⟩ := (hmem s).mpr hs
      exact hloose ⟨items, htakes, item, hitem, s, htext, hnot⟩
  · cases h.symm.trans herror

end Patterns

-- ================================================================ filters

namespace Filter

variable {f : Filter} {options : Options}

/-- All patterns of a filter. -/
def patterns (f : Filter) : List Text := f.ignoreHeaders ++ f.ignoreUrlParams

/-- What the patterns of a filter were made of. -/
theorem ofOptions_eq_ok (h : ofOptions options = .ok f) :
    patternOption options ignoreHeadersName = (f.ignoreHeaders, [])
      ∧ patternOption options ignoreUrlParamsName = (f.ignoreUrlParams, []) := by
  unfold ofOptions at h
  dsimp only at h
  split at h
  case h_1 hissues =>
    simp only [List.append_eq_nil_iff] at hissues
    cases h
    exact ⟨Prod.ext rfl hissues.1.2, Prod.ext rfl hissues.2⟩
  case h_2 => cases h

/-- An option for patterns with an item that is taken as it is and that
cleaning would change. -/
def LooseAt (options : Options) (name : Text) : Prop :=
  ∃ v, Value.lookupText options name = some v ∧ Patterns.IsLoose v

theorem patternOption_isPattern_iff
    (h : patternOption options name = (ps, [])) :
    (∀ p ∈ ps, IsPattern p) ↔ ¬ LooseAt options name := by
  unfold patternOption at h
  unfold LooseAt
  cases hlookup : Value.lookupText options name with
  | none =>
      rw [hlookup] at h
      cases h
      simp
  | some v =>
      rw [hlookup] at h
      dsimp only at h
      split at h
      case h_1 patterns hvalue =>
        cases h
        rw [Patterns.ofValue_isPattern_iff hvalue]
        simp
      case h_2 issues hvalue =>
        cases h
        rcases Patterns.ofValue_cases name v with
          ⟨_, hok, -⟩ | ⟨_, _, hok, -, -⟩ | ⟨_, herror, hne⟩
        · cases hvalue.symm.trans hok
        · cases hvalue.symm.trans hok
        · cases hvalue.symm.trans herror
          exact absurd rfl hne

theorem patternOption_eq {v : Value.Unfolded}
    (hv : Value.lookupText options name = some v)
    (hps : Patterns.ofValue name v = .ok ps) :
    patternOption options name = (ps, []) := by
  unfold patternOption
  rw [hv]
  dsimp only
  rw [hps]

/-- A filter's own options are cleaned when they are read again. -/
theorem ofOptions_toOptions (f : Filter) :
    ofOptions (.ofEntries f.toOptions)
      = .ok ⟨f.excludeSensitiveHeaders, f.logRequestBody,
          Patterns.clean f.ignoreHeaders, Patterns.clean f.ignoreUrlParams⟩ := by
  have hheaders : patternOption (.ofEntries f.toOptions) ignoreHeadersName
      = (Patterns.clean f.ignoreHeaders, []) :=
    patternOption_eq rfl (Patterns.ofValue_list _ _)
  have hparams : patternOption (.ofEntries f.toOptions) ignoreUrlParamsName
      = (Patterns.clean f.ignoreUrlParams, []) :=
    patternOption_eq rfl (Patterns.ofValue_list _ _)
  unfold ofOptions
  rw [hheaders, hparams]
  rfl

/-- A filter is got back from its own options exactly if its patterns are
clean. -/
theorem ofOptions_toOptions_iff (f : Filter) :
    ofOptions (.ofEntries f.toOptions) = .ok f
      ↔ ∀ p ∈ f.patterns, IsPattern p := by
  obtain ⟨sensitive, body, headers, params⟩ := f
  rw [ofOptions_toOptions, Except.ok.injEq, Filter.mk.injEq]
  simp only [true_and, patterns, List.forall_mem_append,
    Patterns.clean_eq_self_iff]

/-- Texts as a list, or joined to one text. -/
inductive Given (L : List Text) : Value → Prop where
  | list : Given L (.list (L.map .text))
  | joined : Given L (.text (Text.joinWith [','] L))

theorem Given.ofValue_eq {v : Value} (h : Given L v)
    (hL : ∀ s ∈ L, ',' ∉ s) (location : Text) :
    Patterns.ofValue location (.of v) = .ok (Patterns.clean L) := by
  cases h with
  | list => exact Patterns.ofValue_list location L
  | joined => exact congrArg Except.ok (Patterns.ofText_joined hL)

/-- The filter with one option for patterns. -/
theorem Given.ofOptions_eq {v : Value} (h : Given L v)
    (hL : ∀ s ∈ L, ',' ∉ s) :
    ofOptions (.ofEntries [(.text ignoreHeadersName, v)])
        = .ok ⟨true, true, Patterns.clean L, []⟩
      ∧ ofOptions (.ofEntries [(.text ignoreUrlParamsName, v)])
        = .ok ⟨true, true, [], Patterns.clean L⟩ := by
  have hheaders : patternOption (.ofEntries [(.text ignoreHeadersName, v)])
      ignoreHeadersName = (Patterns.clean L, []) :=
    patternOption_eq rfl (h.ofValue_eq hL _)
  have hparams : patternOption (.ofEntries [(.text ignoreUrlParamsName, v)])
      ignoreUrlParamsName = (Patterns.clean L, []) :=
    patternOption_eq rfl (h.ofValue_eq hL _)
  unfold ofOptions
  rw [hheaders, hparams]
  exact ⟨rfl, rfl⟩

/-- Texts without commas make the same patterns as a list, joined to one
text, and as that text in the settings: those that are not blank, in their
order, each without the white space around it. A filter is got back from its
own options exactly if its patterns are like that, be they with commas or
not. Filters from settings always are; filters from options are unless an
option is a set, or an object that is walked through, with a text that is
not. -/
theorem patterns_of_channels (hL : ∀ s ∈ L, ',' ∉ s) (f : Filter) :
    (∃ ps, List.Forall₂ Text.Strips (L.filter fun s => !s.isAllBlank) ps
      ∧ (∀ v, Given L v →
        ofOptions (.ofEntries [(.text ignoreHeadersName, v)])
            = .ok ⟨true, true, ps, []⟩
          ∧ ofOptions (.ofEntries [(.text ignoreUrlParamsName, v)])
            = .ok ⟨true, true, [], ps⟩)
      ∧ ∀ s : Settings,
        (s.ignoreHeaders = Text.joinWith [','] L →
          (ofSettings s).ignoreHeaders = ps)
        ∧ (s.ignoreUrlParams = Text.joinWith [','] L →
          (ofSettings s).ignoreUrlParams = ps))
      ∧ (ofOptions (.ofEntries f.toOptions) = .ok f
          ↔ ∀ p ∈ f.patterns, IsPattern p)
      ∧ (∀ s : Settings, f = ofSettings s → ∀ p ∈ f.patterns, IsPattern p)
      ∧ ∀ options, ofOptions options = .ok f →
          ((∀ p ∈ f.patterns, IsPattern p) ↔
            ¬ LooseAt options ignoreHeadersName
              ∧ ¬ LooseAt options ignoreUrlParamsName) := by
  refine ⟨⟨_, Patterns.forall₂_clean L, fun v hv => hv.ofOptions_eq hL,
    fun s => ⟨?_, ?_⟩⟩, ofOptions_toOptions_iff f, ?_, fun options h => ?_⟩
  · intro hs
    show Patterns.ofText s.ignoreHeaders = _
    rw [hs, Patterns.ofText_joined hL]
  · intro hs
    show Patterns.ofText s.ignoreUrlParams = _
    rw [hs, Patterns.ofText_joined hL]
  · rintro s rfl
    unfold patterns
    rw [List.forall_mem_append]
    exact ⟨fun p => Patterns.isPattern_of_mem_clean,
      fun p => Patterns.isPattern_of_mem_clean⟩
  · obtain ⟨hheaders, hparams⟩ := ofOptions_eq_ok h
    unfold patterns
    rw [List.forall_mem_append, patternOption_isPattern_iff hheaders,
      patternOption_isPattern_iff hparams]

/-- Three texts, one of them with white space around it and one blank. -/
theorem patterns_of_channels_padded :
    let joined : Options :=
      .ofEntries [(.text ignoreHeadersName, .text " a ,,b".toList)]
    let listed : Options := .ofEntries [(.text ignoreHeadersName,
      .list [.text " a ".toList, .text [], .text "b".toList])]
    let f : Filter := ⟨true, true, ["a".toList, "b".toList], []⟩
    (∀ s ∈ [" a ".toList, [], "b".toList], ',' ∉ s)
      ∧ ofOptions joined = .ok f ∧ ofOptions listed = .ok f
      ∧ ofOptions (.ofEntries f.toOptions) = .ok f
      ∧ ∀ p ∈ f.patterns, IsPattern p := by
  intro joined listed f
  have hL : ∀ s ∈ [" a ".toList, [], "b".toList], ',' ∉ s := by decide
  obtain ⟨⟨ps, -, hgiven, -⟩, hreproduced, -, hclean⟩ :=
    patterns_of_channels hL f
  have hjoined : ofOptions joined = .ok f := rfl
  have hps := (hgiven _ .joined).1.symm.trans hjoined
  have hloose (name : Text) : ¬ LooseAt joined name := by
    rintro ⟨v, hv, items, htakes, -⟩
    unfold Value.lookupText Value.lookup at hv
    obtain ⟨e, he, rfl⟩ := Option.map_eq_some_iff.mp hv
    obtain rfl := List.mem_singleton.mp (List.mem_of_find?_eq_some he)
    cases htakes with
    | set hwhole
    | foreign hwhole
    | agent hwhole => cases hwhole
  have hpatterns := (hclean _ hjoined).mpr ⟨hloose _, hloose _⟩
  exact ⟨hL, hjoined, (hgiven _ .list).1.trans hps,
    hreproduced.mpr hpatterns, hpatterns⟩

/-- A text with white space around it, in a set: it is taken as it is, and
the filter's own options make another filter. -/
theorem padded_in_set :
    ∃ f, ofOptions (.ofEntries [(.text ignoreHeadersName,
          .set [.text " X-A ".toList])]) = .ok f
      ∧ f.ignoreHeaders = [" X-A ".toList]
      ∧ ofOptions (.ofEntries f.toOptions)
        = .ok { f with ignoreHeaders := ["X-A".toList] }
      ∧ ofOptions (.ofEntries f.toOptions) ≠ .ok f := by
  refine ⟨⟨true, true, [" X-A ".toList], []⟩, rfl, rfl, rfl, fun h => ?_⟩
  rw [ofOptions_toOptions_iff] at h
  have htrimmed := (h " X-A ".toList (List.mem_singleton_self _)).trimmed
  exact absurd (htrimmed.first ' ' rfl) (by decide)

end Filter

end AuditTrail
