import PromptStudio.Proofs.Backend.Path
import PromptStudio.Proofs.Text.Lines

/-!
# Addresses below an address

An address that the transport can reach, without a query or a fragment, is put before a slash and
more text. Either no such text makes an address that can be read, or every one does, and then all of
them are at one scheme, host and port and have their paths below the same segments
(`parse?_below`). Of the text itself `sentPath` is what gets into the path.
-/

namespace PromptStudio.Url

/-! ## Blanks and line breaks -/

/-- Is dropped at both ends of an address. -/
def isEdge (c : Char) : Bool := c.toNat ≤ 0x20

/-- Is dropped nowhere but at the ends. -/
def isKept (c : Char) : Bool := c != '\t' && c != '\n' && c != '\r'

/-- What an address keeps of the text at its end. -/
def tidied (cs : List Char) : List Char := (cs.rdropWhile isEdge).filter isKept

theorem dropWhile_append_cons {p : Char → Bool} {c : Char} (hc : p c = false)
    (xs ys : List Char) : (xs ++ c :: ys).dropWhile p = xs.dropWhile p ++ c :: ys := by
  induction xs with
  | nil => exact List.dropWhile_cons_of_neg (by simp [hc])
  | cons x xs ih =>
    rw [List.cons_append, List.dropWhile_cons, List.dropWhile_cons]
    split
    · exact ih
    · rfl

theorem takeWhile_append_cons {p : Char → Bool} {c : Char} (hc : p c = false)
    (xs ys : List Char) : (xs ++ c :: ys).takeWhile p = xs.takeWhile p := by
  induction xs with
  | nil => exact List.takeWhile_cons_of_neg (by simp [hc])
  | cons x xs ih =>
    rw [List.cons_append, List.takeWhile_cons, List.takeWhile_cons, ih]

/-- A slash separates what is dropped before it from what is dropped behind it. -/
theorem clean_append_cons (xs ys : List Char) :
    clean (xs ++ '/' :: ys) = (xs.dropWhile isEdge).filter isKept ++ '/' :: tidied ys := by
  show (((xs ++ '/' :: ys).dropWhile isEdge).rdropWhile isEdge).filter isKept = _
  rw [dropWhile_append_cons (by decide), Text.rdropWhile_append_cons (by decide),
    List.filter_append]
  rfl

/-- Does not end in a blank. -/
def EndsPlain (cs : List Char) : Prop := ∀ c ∈ cs.getLast?, isEdge c = false

instance (cs : List Char) : Decidable (EndsPlain cs) :=
  match h : cs.getLast? with
  | none => isTrue (by simp [EndsPlain, h])
  | some c => decidable_of_iff (isEdge c = false) (by simp [EndsPlain, h])

/-- Before a slash the blanks at the end of an address stay. -/
theorem exists_blanks (xs : List Char) :
    ∃ blanks, (xs.dropWhile isEdge).filter isKept = clean xs ++ blanks ∧
      (∀ c ∈ blanks, isEdge c = true) ∧ (EndsPlain xs → blanks = []) := by
  refine ⟨((xs.dropWhile isEdge).rtakeWhile isEdge).filter isKept, ?_, ?_, ?_⟩
  · show _ = ((xs.dropWhile isEdge).rdropWhile isEdge).filter isKept ++ _
    rw [← List.filter_append, List.rdropWhile_append_rtakeWhile]
  · intro c hc
    exact List.mem_rtakeWhile_imp (List.mem_filter.mp hc).1
  · intro hplain
    have hnone : (xs.dropWhile isEdge).rtakeWhile isEdge = [] := by
      rw [List.rtakeWhile_eq_nil_iff]
      intro hne
      have hsuffix : xs.dropWhile isEdge <:+ xs := List.dropWhile_suffix isEdge
      rw [hsuffix.getLast hne]
      exact Bool.eq_false_iff.mp (hplain _ (List.getLast?_eq_some_getLast _))
    rw [hnone, List.filter_nil]

/-! ## Parts of an address -/

theorem cut_cons (p : Char → Bool) (c : Char) (cs : List Char) :
    cut p (c :: cs) = if p c then ([], some cs) else (c :: (cut p cs).1, (cut p cs).2) := by
  by_cases hc : p c = true
  · simp [cut, hc]
  · simp only [cut, List.dropWhile_cons, List.takeWhile_cons, hc]
    cases cs.dropWhile (!p ·) <;> rfl

theorem fst_cut (p : Char → Bool) (cs : List Char) : (cut p cs).1 = cs.takeWhile (!p ·) := by
  induction cs with
  | nil => rfl
  | cons c cs ih =>
    rw [cut_cons, List.takeWhile_cons, ← ih]
    cases p c <;> rfl

/-- The part behind, if there is one, grows with the text. -/
theorem cut_append_of_some {p : Char → Bool} {xs before behind : List Char}
    (h : cut p xs = (before, some behind)) (ys : List Char) :
    cut p (xs ++ ys) = (before, some (behind ++ ys)) := by
  induction xs generalizing before with
  | nil => cases h
  | cons x xs ih =>
    rw [cut_cons] at h
    rw [List.cons_append, cut_cons]
    split at h
    case isTrue hx =>
      cases h
      rw [if_pos hx]
    case isFalse hx =>
      obtain ⟨rfl, hbehind⟩ := Prod.mk.inj h
      rw [if_neg hx, ih (Prod.ext rfl hbehind)]

/-- If there is none, the text is cut where what follows is. -/
theorem cut_append_of_none {p : Char → Bool} {xs : List Char} (h : (cut p xs).2 = none)
    (ys : List Char) : cut p (xs ++ ys) = (xs ++ (cut p ys).1, (cut p ys).2) := by
  induction xs with
  | nil => rfl
  | cons x xs ih =>
    rw [cut_cons] at h
    rw [List.cons_append, cut_cons]
    split at h
    case isTrue => cases h
    case isFalse hx => rw [if_neg hx, ih h, List.cons_append]

theorem fst_cut_of_none {p : Char → Bool} {xs : List Char} (h : (cut p xs).2 = none) :
    (cut p xs).1 = xs := by
  have hcut := congrArg Prod.fst (cut_append_of_none h [])
  rw [List.append_nil] at hcut
  exact hcut.trans (List.append_nil xs)

theorem cut_append_cons_of_none {p : Char → Bool} {xs : List Char} {c : Char}
    (h : (cut p xs).2 = none) (hc : p c = false) (ys : List Char) :
    cut p (xs ++ c :: ys) = (xs ++ c :: (cut p ys).1, (cut p ys).2) := by
  rw [cut_append_of_none h, cut_cons, if_neg (by simp [hc])]

theorem snd_cut_eq_none {p : Char → Bool} {cs : List Char} (h : ∀ c ∈ cs, p c = false) :
    (cut p cs).2 = none := by
  induction cs with
  | nil => rfl
  | cons c cs ih =>
    rw [List.forall_mem_cons] at h
    rw [cut_cons, if_neg (by simp [h.1])]
    exact ih h.2

/-- Blanks and a slash are never cut off. -/
theorem cut_append_slash {mark : Char} {xs blanks : List Char} (hxs : (cut (· == mark) xs).2 = none)
    (hblanks : ∀ c ∈ blanks, isEdge c = true) (hmark : isEdge mark = false) (hslash : '/' ≠ mark)
    (ys : List Char) : cut (· == mark) (xs ++ blanks ++ '/' :: ys) =
      (xs ++ blanks ++ '/' :: (cut (· == mark) ys).1, (cut (· == mark) ys).2) := by
  have hnone : (cut (· == mark) (xs ++ blanks)).2 = none := by
    rw [cut_append_of_none hxs]
    refine snd_cut_eq_none fun c hc => beq_false_of_ne ?_
    rintro rfl
    exact absurd (hblanks c hc) (hmark ▸ Bool.false_ne_true)
  exact cut_append_cons_of_none hnone (beq_false_of_ne hslash) ys

theorem scheme?_append {xs rest : List Char} {scheme : String}
    (h : scheme? xs = some (scheme, rest)) (ys : List Char) :
    scheme? (xs ++ ys) = some (scheme, rest ++ ys) := by
  unfold scheme? at h ⊢
  split at h
  case h_1 name behind hcut =>
    rw [cut_append_of_some hcut]
    split at h
    case h_1 =>
      split at h
      case isTrue hname =>
        cases h
        simp only [hname, if_true]
      case isFalse => cases h
    case h_2 => cases h
  case h_2 => cases h

/-! ## Reading addresses -/

theorem isWeb_iff {u : Url} :
    u.isWeb = true ↔ u.host.isSome = true ∧ (u.scheme = "http" ∨ u.scheme = "https") := by
  simp [isWeb]

/-- An address whose scheme always has a host, by its parts. -/
theorem parse?_of_scheme? {text scheme : String} {rest : List Char}
    (h : scheme? (clean text.toList) = some (scheme, rest))
    (hhost : (hostSchemes.lookup scheme).isSome = true) :
    parse? text =
      let fragment := cut (· == '#') rest
      let query := cut (· == '?') fragment.1
      let behind := query.1.dropWhile isSlash
      (authority? scheme (behind.takeWhile (!isSlash ·))).map fun r =>
        { scheme, host := some r.1, port := r.2
          path := pathText isSlash (behind.dropWhile (!isSlash ·))
          query := query.2.map fun cs => String.ofList (escape queryMarks cs)
          fragment := fragment.2.map fun cs => String.ofList (escape fragmentMarks cs) } := by
  unfold parse?
  rw [h]
  simp only [Option.bind_eq_bind, Option.bind_some, hhost, if_true]
  show (authority? scheme (((cut (· == '?') (cut (· == '#') rest).1).1.dropWhile isSlash).takeWhile
    (!isSlash ·))).bind _ = _
  cases authority? scheme (((cut (· == '?') (cut (· == '#') rest).1).1.dropWhile isSlash).takeWhile
    (!isSlash ·)) <;> rfl

theorem scheme?_of_parse? {text : String} {u : Url} (h : parse? text = some u) :
    ∃ rest, scheme? (clean text.toList) = some (u.scheme, rest) := by
  unfold parse? at h
  cases hscheme : scheme? (clean text.toList) with
  | none => simp [hscheme] at h
  | some r =>
    obtain ⟨scheme, rest⟩ := r
    refine ⟨rest, ?_⟩
    rw [hscheme] at h
    simp only [Option.bind_eq_bind, Option.bind_some] at h
    have hu : u.scheme = scheme := by
      split at h
      · obtain ⟨_, _, hu⟩ := Option.bind_eq_some_iff.mp h
        cases hu
        rfl
      · split at h
        · obtain ⟨_, _, hu⟩ := Option.bind_eq_some_iff.mp h
          cases hu
          rfl
        · cases h
          rfl
        · cases h
          rfl
    rw [hu]

/-- An address that the transport can reach, without a query or a fragment, is a scheme, a colon and
text that has a host in it. -/
theorem exists_rest {address : String} {root : Url} (h : parse? address = some root)
    (hweb : root.isWeb = true) (hquery : root.query = none) (hfragment : root.fragment = none) :
    (hostSchemes.lookup root.scheme).isSome = true ∧
      ∃ rest, scheme? (clean address.toList) = some (root.scheme, rest) ∧
        (cut (· == '#') rest).2 = none ∧ (cut (· == '?') rest).2 = none ∧
        ∃ r, authority? root.scheme ((rest.dropWhile isSlash).takeWhile (!isSlash ·)) = some r := by
  have hhost : (hostSchemes.lookup root.scheme).isSome = true := by
    rcases (isWeb_iff.mp hweb).2 with hscheme | hscheme <;> rw [hscheme] <;> decide
  obtain ⟨rest, hscheme⟩ := scheme?_of_parse? h
  rw [parse?_of_scheme? hscheme hhost] at h
  obtain ⟨r, hauthority, hroot⟩ := Option.map_eq_some_iff.mp h
  rw [← hroot] at hfragment hquery
  have hfragment : (cut (· == '#') rest).2 = none := Option.map_eq_none_iff.mp hfragment
  have hquery : (cut (· == '?') rest).2 = none := by
    rw [← fst_cut_of_none hfragment]
    exact Option.map_eq_none_iff.mp hquery
  rw [fst_cut_of_none hfragment, fst_cut_of_none hquery] at hauthority
  exact ⟨hhost, rest, hscheme, hfragment, hquery, r, hauthority⟩

/-- What of a text below an address gets into the path. -/
def sentPath (cs : List Char) : List Char := (cut (· == '?') (cut (· == '#') (tidied cs)).1).1

/-- All the text below an address that the transport can reach is read at one place, or none is. -/
theorem parse?_below {address : String} {root : Url} (h : parse? address = some root)
    (hweb : root.isWeb = true) (hquery : root.query = none) (hfragment : root.fragment = none) :
    ∃ (authority : List Char) (above : List (List Char)),
      (EndsPlain address.toList → ∃ r, authority? root.scheme authority = some r) ∧
      ∀ text : String,
        parse? (address ++ "/" ++ text) = (authority? root.scheme authority).map fun r =>
          { scheme := root.scheme, host := some r.1, port := r.2
            path := String.ofList (joined (resolve above (segments (sentPath text.toList))))
            query := (cut (· == '?') (cut (· == '#') (tidied text.toList)).1).2.map fun cs =>
              String.ofList (escape queryMarks cs)
            fragment := (cut (· == '#') (tidied text.toList)).2.map fun cs =>
              String.ofList (escape fragmentMarks cs) } := by
  obtain ⟨hhost, rest, hscheme, hfragment, hquery, r, hauthority⟩ :=
    exists_rest h hweb hquery hfragment
  have hbehind : rest.dropWhile isSlash ≠ [] := by
    intro hnil
    rw [hnil] at hauthority
    cases hauthority
  obtain ⟨blanks, hblanks, hedge, hplain⟩ := exists_blanks address.toList
  -- there is a host, so the text starts behind it
  let behind := rest.dropWhile isSlash ++ blanks
  have hstart : ∀ c ∈ (behind.dropWhile (!isSlash ·)).head?, isSlash c = true := by
    intro c hc
    have hnot := List.head?_dropWhile_not (!isSlash ·) behind
    rw [hc] at hnot
    simpa using hnot
  obtain ⟨above, hpath⟩ := pathText_append_cons hstart
  refine ⟨behind.takeWhile (!isSlash ·), above, fun hend => ⟨r, ?_⟩, fun text => ?_⟩
  · rwa [show behind = rest.dropWhile isSlash ++ blanks from rfl, hplain hend, List.append_nil]
  have hclean : clean (address ++ "/" ++ text).toList =
      clean address.toList ++ (blanks ++ '/' :: tidied text.toList) := by
    rw [String.toList_append, String.toList_append, List.append_assoc]
    show clean (address.toList ++ '/' :: text.toList) = _
    rw [clean_append_cons, hblanks, List.append_assoc]
  have hfragments := cut_append_slash hfragment hedge (by decide) (by decide)
  have hqueries := cut_append_slash hquery hedge (by decide) (by decide)
  have hdrop : ∀ ys, (rest ++ blanks ++ '/' :: ys).dropWhile isSlash = behind ++ '/' :: ys := by
    intro ys
    rw [List.append_assoc, List.dropWhile_append, if_neg (by rwa [List.isEmpty_iff]),
      ← List.append_assoc]
  have htake : ∀ ys, (behind ++ '/' :: ys).takeWhile (!isSlash ·) =
      behind.takeWhile (!isSlash ·) := takeWhile_append_cons (by decide) _
  have hrest : ∀ ys, (behind ++ '/' :: ys).dropWhile (!isSlash ·) =
      behind.dropWhile (!isSlash ·) ++ '/' :: ys := dropWhile_append_cons (by decide) _
  rw [parse?_of_scheme? (hclean ▸ scheme?_append hscheme _) hhost, ← List.append_assoc]
  simp only [hfragments, hqueries, hdrop, htake, hrest, hpath, sentPath]

/-! ## Text that is kept as it is -/

theorem sentPath_sublist (cs : List Char) : (sentPath cs).Sublist cs := by
  unfold sentPath tidied
  rw [fst_cut, fst_cut]
  exact (List.takeWhile_sublist _).trans ((List.takeWhile_sublist _).trans
    (List.filter_sublist.trans (List.rdropWhile_prefix _ cs).sublist))

/-- Text gets into the path as a whole exactly if it has no character that is dropped or ends the
path, and no blank at its end. -/
theorem sentPath_eq_self_iff {cs : List Char} :
    sentPath cs = cs ↔ (∀ c ∈ cs, c ≠ '#' ∧ c ≠ '?' ∧ isKept c = true) ∧ EndsPlain cs := by
  have hlast : cs.rdropWhile isEdge = cs ↔ EndsPlain cs := by
    rw [List.rdropWhile_eq_self_iff, EndsPlain]
    rcases List.eq_nil_or_concat cs with rfl | ⟨before, c, rfl⟩ <;> simp
  unfold sentPath
  rw [fst_cut, fst_cut, ← hlast]
  constructor
  · intro h
    -- nothing is lost on the way
    have hdropped := (List.rdropWhile_prefix isEdge (l := cs)).sublist
    have hfiltered : (tidied cs).Sublist (cs.rdropWhile isEdge) := List.filter_sublist
    have hcut : cs.Sublist ((tidied cs).takeWhile (!· == '#')) := by
      conv_lhs => rw [← h]
      exact List.takeWhile_sublist _
    have hsent : cs.Sublist (tidied cs) := hcut.trans (List.takeWhile_sublist _)
    have hblanks : cs.rdropWhile isEdge = cs := hdropped.antisymm (hsent.trans hfiltered)
    have htidied : tidied cs = cs := (hfiltered.trans hdropped).antisymm hsent
    rw [htidied] at hcut h
    have hfragment : cs.takeWhile (!· == '#') = cs := (List.takeWhile_sublist _).antisymm hcut
    rw [hfragment, List.takeWhile_eq_self_iff] at h
    rw [List.takeWhile_eq_self_iff] at hfragment
    rw [tidied, hblanks, List.filter_eq_self] at htidied
    exact ⟨fun c hc => ⟨by simpa using hfragment c hc, by simpa using h c hc, htidied c hc⟩,
      hblanks⟩
  · rintro ⟨hplain, hblanks⟩
    have htidied : tidied cs = cs := by
      rw [tidied, hblanks]
      exact List.filter_eq_self.mpr fun c hc => (hplain c hc).2.2
    have hfragment : cs.takeWhile (!· == '#') = cs :=
      List.takeWhile_eq_self_iff.mpr fun c hc => by simpa using (hplain c hc).1
    rw [htidied, hfragment]
    exact List.takeWhile_eq_self_iff.mpr fun c hc => by simpa using (hplain c hc).2.1

/-- The text as it is written in a path. -/
def escaped (text : String) : String := String.ofList (escape pathMarks text.toList)

/-- Is kept as it is below an address. -/
def Intact (cs : List Char) : Prop :=
  sentPath cs = cs ∧ '\\' ∉ cs ∧ ∀ s ∈ segments cs, isDots s = false

/-- The characters that end a path, that are dropped wherever they stand, or that become slashes. -/
def lost : List Char := ['#', '?', '\\', '\t', '\n', '\r']

theorem intact_iff {cs : List Char} :
    Intact cs ↔ (∀ c ∈ cs, c ∉ lost) ∧ (∀ s ∈ segments cs, isDots s = false) ∧ EndsPlain cs := by
  have hlost : ∀ c, c ∉ lost ↔ (c ≠ '#' ∧ c ≠ '?' ∧ isKept c = true) ∧ c ≠ '\\' := by
    intro c
    simp only [lost, isKept, List.mem_cons, List.not_mem_nil, Bool.and_eq_true, bne_iff_ne]
    tauto
  rw [Intact, sentPath_eq_self_iff]
  constructor
  · rintro ⟨⟨hplain, hlast⟩, hslash, hdots⟩
    exact ⟨fun c hc => (hlost c).mpr ⟨hplain c hc, ne_of_mem_of_not_mem hc hslash⟩, hdots, hlast⟩
  · rintro ⟨hplain, hdots, hlast⟩
    exact ⟨⟨fun c hc => ((hlost c).mp (hplain c hc)).1, hlast⟩,
      fun hslash => ((hlost _).mp (hplain _ hslash)).2 rfl, hdots⟩

/-- Below an address that the transport can reach every text is read at the same place, or none is,
which needs a blank at the end of the address; and a text is put behind the path of the address as
it is exactly if it is kept there. -/
theorem path_below_iff {address : String} {root : Url} (h : parse? address = some root)
    (hweb : root.isWeb = true) (hquery : root.query = none) (hfragment : root.fragment = none) :
    (¬ EndsPlain address.toList ∧ ∀ text : String, parse? (address ++ "/" ++ text) = none) ∨
      ∃ base, parse? (address ++ "/") = some base ∧
        ∀ text : String, ∃ u, parse? (address ++ "/" ++ text) = some u ∧ u.isWeb = true ∧
          u.scheme = base.scheme ∧ u.host = base.host ∧ u.port = base.port ∧
          (u.path = base.path ++ escaped text ↔ Intact text.toList) := by
  obtain ⟨authority, above, hplain, hparse⟩ := parse?_below h hweb hquery hfragment
  cases hauthority : authority? root.scheme authority with
  | none =>
    refine .inl ⟨fun hend => ?_, fun text => ?_⟩
    · obtain ⟨r, hr⟩ := hplain hend
      cases hr.symm.trans hauthority
    · rw [hparse, hauthority]
      rfl
  | some r =>
    have hbase := hparse ""
    rw [hauthority, String.append_empty] at hbase
    refine .inr ⟨_, hbase, fun text => ?_⟩
    have htext := hparse text
    rw [hauthority] at htext
    refine ⟨_, htext, isWeb_iff.mpr ⟨rfl, (isWeb_iff.mp hweb).2⟩, rfl, rfl, rfl, ?_⟩
    have hempty : joined (resolve above (segments [])) = joined above.reverse ++ ['/'] :=
      (joined_resolve_eq_iff above (List.Sublist.refl [])).mpr ⟨rfl, List.not_mem_nil, by decide⟩
    show String.ofList _ = String.ofList (joined (resolve above (segments []))) ++ _ ↔ _
    rw [Intact, ← joined_resolve_eq_iff above (sentPath_sublist text.toList), hempty, escaped,
      ← String.ofList_append, String.ofList_inj, List.append_assoc]
    rfl

end PromptStudio.Url
