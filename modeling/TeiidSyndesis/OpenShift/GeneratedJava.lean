/-
# TeiidSyndesis.OpenShift.GeneratedJava — where the templates place the names of sources.

A template uses the name of a source at the end of a class name, as the name of a method and in string
literals.  What makes such a name of a connection removes characters that are problematic for Teiid, not
those that are no part of a Java identifier, and does not look at keywords.

Main results:
* `map_uses_templates` — where the templates place a name, read off their texts;
* `wellFormedName_iff` — so what a name has to be;
* `normalizedChars_cons`, `wellFormed_normalized` — what lower case without hyphens makes of it;
* `suffixed_not_keyword`, `identifierChars_suffixed` — a suffix settles the keywords, not the characters;
* `wellFormed_created_iff` — the exact condition on the Syndesis name;
* `digit_begins_method` — a name for which the generated class does not compile.
-/
import TeiidSyndesis.OpenShift.KomodoNames
import TeiidSyndesis.OpenShift.PublishedImage

namespace TeiidSyndesis.OpenShift

open TeiidSyndesis.Library TeiidSyndesis.Model

/-! ## Places in the templates -/

/-- What a name is used as. -/
inductive Use
  | identifier
  /-- at the end of an identifier -/
  | identifierEnd
  | literal
  deriving DecidableEq, Repr

/-- The name may stand there. -/
def Use.accepts (java : JavaText) (name : String) : Use → Bool
  | .identifier => java.isIdentifier name
  | .identifierEnd => name.toList.all java.isJavaIdentifierPart
  | .literal => name.toList.all fun c => !JavaText.breaksLiteral c

/-- A text goes on in a string literal or outside of one; the templates escape nothing. -/
def insideAfter : Bool → List Char → Bool
  | inside, [] => inside
  | inside, c :: cs => insideAfter (if c = '"' then !inside else inside) cs

/-- The uses of the name, from a place inside or outside of a literal on that follows a character. -/
def usesFrom : Bool → Char → Template → List Use
  | _, _, [] => []
  | inside, last, .text text :: pieces =>
      usesFrom (insideAfter inside text.toList) (text.toList.getLastD last) pieces
  | inside, _, .packageName :: pieces => usesFrom inside 'n' pieces
  | inside, last, .dsName :: pieces =>
      (if inside then Use.literal
        else if JavaText.isAsciiLetterOrDigit last then .identifierEnd
        else .identifier) :: usesFrom inside last pieces

/-- The places of the name in a template. -/
def uses (template : Template) : List Use := usesFrom false ' ' template

def templates : List Template := [jdbcTemplate, mongoDBTemplate, salesforceTemplate]

/-- Whether a literal is open after a text. -/
theorem insideAfter_append (inside : Bool) (cs ds : List Char) :
    insideAfter inside (cs ++ ds) = insideAfter (insideAfter inside cs) ds := by
  induction cs generalizing inside with
  | nil => rfl
  | cons c cs ih => exact ih _

/-- A text may be read in two parts. -/
theorem usesFrom_append (inside : Bool) (last : Char) (text text' : String) (pieces : Template) :
    usesFrom inside last (.text (text ++ text') :: pieces) =
      usesFrom inside last (.text text :: .text text' :: pieces) := by
  simp only [usesFrom]
  rw [String.toList_append, insideAfter_append, List.getLastD_eq_getLast?, List.getLast?_append]
  simp [List.getLastD_eq_getLast?]

/-- A text changes what the next place is in, and behind what. -/
theorem usesFrom_text (inside : Bool) (last : Char) (cs : List Char) (pieces : Template) :
    usesFrom inside last (.text (String.ofList cs) :: pieces) =
      usesFrom (insideAfter inside cs) (cs.getLastD last) pieces := by
  rw [usesFrom, String.toList_ofList]

theorem map_uses_templates :
    templates.map uses =
      [[.identifierEnd, .literal, .literal, .identifier],
        [.identifierEnd, .literal, .identifier, .literal, .literal, .literal],
        [.identifierEnd, .literal, .identifier, .literal, .literal, .literal]] := by
  show [uses jdbcTemplate, uses mongoDBTemplate, uses salesforceTemplate] = _
  unfold uses jdbcTemplate mongoDBTemplate salesforceTemplate
  repeat first | rw [usesFrom_append] | rw [usesFrom_text] | rw [usesFrom]
  decide +kernel

/-- Each template uses the name in all three ways. -/
theorem uses_templates {template : Template} (h : template ∈ templates) (use : Use) :
    use ∈ uses template := by
  have hmem : uses template ∈ templates.map uses := List.mem_map_of_mem h
  rw [map_uses_templates] at hmem
  generalize uses template = used at hmem ⊢
  simp only [List.mem_cons, List.not_mem_nil, or_false] at hmem
  rcases hmem with rfl | rfl | rfl
  all_goals cases use <;> decide

/-- The name is an identifier and changes no literal. -/
def WellFormedName (java : JavaText) (name : String) : Prop :=
  java.isIdentifier name = true ∧ ∀ c ∈ name.toList, JavaText.breaksLiteral c = false

/-- Such names are those that may stand wherever a template uses them. -/
theorem wellFormedName_iff {java : JavaText} (hjava : java.Unicode) {template : Template}
    (htemplate : template ∈ templates) {name : String} :
    WellFormedName java name ↔ ∀ use ∈ uses template, use.accepts java name = true := by
  constructor
  · rintro ⟨hidentifier, hliteral⟩ use -
    cases use with
    | identifier => exact hidentifier
    | identifierEnd =>
        have hchars : java.identifierChars name.toList = true := by
          unfold JavaText.isIdentifier at hidentifier
          exact (Bool.and_eq_true_iff.mp hidentifier).1
        show name.toList.all java.isJavaIdentifierPart = true
        cases hname : name.toList with
        | nil => rfl
        | cons c cs =>
            rw [hname] at hchars
            obtain ⟨hstart, hparts⟩ := Bool.and_eq_true_iff.mp hchars
            rw [List.all_cons, hjava.start_part c hstart, hparts]
            rfl
    | literal => exact List.all_eq_true.mpr fun c hc => by simp [hliteral c hc]
  · intro h
    refine ⟨h .identifier (uses_templates htemplate _), fun c hc => ?_⟩
    have hliteral := List.all_eq_true.mp (h .literal (uses_templates htemplate _)) c hc
    simpa using hliteral

/-! ## Lower case without hyphens -/

variable {java : JavaText}

/-- A hyphen in lower case was a hyphen. -/
theorem mem_of_hyphen_lowerAt (hjava : java.Unicode) {before after : List Char} {c : Char}
    (h : '-' ∈ java.lowerAt before c after) : c = '-' := by
  unfold JavaText.lowerAt at h
  split at h
  · exact absurd h (by decide)
  · exact hjava.lower_hyphen c h

/-- A hyphen stays a hyphen in lower case. -/
theorem lowerAt_hyphen (hjava : java.Unicode) (before after : List Char) :
    java.lowerAt before '-' after = ['-'] := by
  unfold JavaText.lowerAt
  rw [if_neg fun h => absurd h.1 (by decide)]
  exact hjava.lower_ascii '-' (by decide)

theorem lowerAt_underscore (hjava : java.Unicode) (before after : List Char) :
    java.lowerAt before '_' after = ['_'] := by
  unfold JavaText.lowerAt
  rw [if_neg fun h => absurd h.1 (by decide)]
  exact hjava.lower_ascii '_' (by decide)

/-- A character and its lower case begin identifiers, and go on with them, or do not, both. -/
theorem lowerAt_spec (hjava : java.Unicode) (before after : List Char) (c : Char) :
    ∃ d ds, java.lowerAt before c after = d :: ds ∧
      java.isJavaIdentifierStart d = java.isJavaIdentifierStart c ∧
      (d :: ds).all java.isJavaIdentifierPart = java.isJavaIdentifierPart c := by
  unfold JavaText.lowerAt
  split
  · rename_i hsigma
    obtain ⟨rfl, -⟩ := hsigma
    obtain ⟨hcapital, hfinal⟩ := hjava.sigma
    refine ⟨JavaText.finalSigma, [], rfl, hfinal.trans hcapital.symm, ?_⟩
    rw [List.all_cons, List.all_nil, Bool.and_true, hjava.start_part _ hcapital,
      hjava.start_part _ hfinal]
  · obtain ⟨d, ds, hlower, hstart⟩ := hjava.lower_start c
    refine ⟨d, ds, hlower, hstart, ?_⟩
    rw [← hlower]
    exact hjava.lower_part c

/-- The characters of the normalized name. -/
def normalizedChars (java : JavaText) (before cs : List Char) : List Char :=
  (java.lowerFrom before cs).filter (· ≠ '-')

/-- The normalized name, as a list. -/
theorem toList_normalizedName (java : JavaText) (name : String) :
    (normalizedName java name).toList = normalizedChars java [] name.toList := by
  unfold normalizedName removeHyphens JavaText.toLowerCase normalizedChars
  rw [String.toList_ofList, String.toList_ofList]

/-- The first character goes, or is put in lower case where it stands. -/
theorem normalizedChars_cons (hjava : java.Unicode) (before cs : List Char) (c : Char) :
    normalizedChars java before (c :: cs) =
      (if c = '-' then [] else java.lowerAt before c cs) ++ normalizedChars java (c :: before) cs := by
  unfold normalizedChars
  rw [JavaText.lowerFrom, List.filter_append]
  congr 1
  split
  · rename_i hc
    subst hc
    rw [lowerAt_hyphen hjava]
    rfl
  · rename_i hc
    refine List.filter_eq_self.mpr fun d hd => ?_
    rw [decide_eq_true_eq]
    rintro rfl
    exact hc (mem_of_hyphen_lowerAt hjava hd)

/-- The characters that are kept. -/
def withoutHyphens (cs : List Char) : List Char := cs.filter (· ≠ '-')

/-- Lower case keeps identifier characters, and makes none. -/
theorem all_normalizedChars (hjava : java.Unicode) (before cs : List Char) :
    (normalizedChars java before cs).all java.isJavaIdentifierPart =
      (withoutHyphens cs).all java.isJavaIdentifierPart := by
  induction cs generalizing before with
  | nil => rfl
  | cons c cs ih =>
      rw [normalizedChars_cons hjava, List.all_append, ih]
      unfold withoutHyphens
      by_cases hc : c = '-'
      · rw [if_pos hc, List.filter_cons_of_neg (by simp [hc])]
        rfl
      · obtain ⟨d, ds, hlower, -, hparts⟩ := lowerAt_spec hjava before cs c
        rw [if_neg hc, List.filter_cons_of_pos (by simp [hc]), List.all_cons, hlower, hparts]

/-- The normalized name is made of identifier characters exactly if the name is, without hyphens. -/
theorem identifierChars_normalized (hjava : java.Unicode) (before cs : List Char) :
    java.identifierChars (normalizedChars java before cs) = java.identifierChars (withoutHyphens cs) := by
  induction cs generalizing before with
  | nil => rfl
  | cons c cs ih =>
      rw [normalizedChars_cons hjava]
      by_cases hc : c = '-'
      · rw [if_pos hc, List.nil_append, ih]
        unfold withoutHyphens
        rw [List.filter_cons_of_neg (by simp [hc])]
      · obtain ⟨d, ds, hlower, hstart, hparts⟩ := lowerAt_spec hjava before cs c
        have hrest := all_normalizedChars hjava (c :: before) cs
        rw [if_neg hc, hlower]
        unfold withoutHyphens at hrest ⊢
        rw [List.filter_cons_of_pos (by simp [hc])]
        show (java.isJavaIdentifierStart d && (ds ++ _).all java.isJavaIdentifierPart) =
          (java.isJavaIdentifierStart c && _)
        rw [hstart, List.all_append, hrest]
        -- what begins an identifier may also go on with it
        cases hc' : java.isJavaIdentifierStart c with
        | false => rfl
        | true =>
            rw [hjava.start_part c hc', List.all_cons, Bool.and_eq_true] at hparts
            rw [hparts.2]
            rfl

/-- Only the words matter besides the characters. -/
theorem wellFormed_normalized (hjava : java.Unicode) (name : String) :
    WellFormedName java (normalizedName java name) ↔
      java.identifierChars (withoutHyphens name.toList) = true ∧
        normalizedName java name ∉ JavaText.keywords := by
  have hchars : java.identifierChars (normalizedName java name).toList =
      java.identifierChars (withoutHyphens name.toList) := by
    rw [toList_normalizedName, identifierChars_normalized hjava]
  have hidentifier : java.isIdentifier (normalizedName java name) = true ↔
      java.identifierChars (withoutHyphens name.toList) = true ∧
        normalizedName java name ∉ JavaText.keywords := by
    unfold JavaText.isIdentifier
    rw [hchars, Bool.and_eq_true, decide_eq_true_eq]
  constructor
  · rintro ⟨h, -⟩
    exact hidentifier.mp h
  · intro h
    refine ⟨hidentifier.mpr h, fun c hc => ?_⟩
    -- every character is an identifier part, and those that break a literal are not
    have hpart : java.isJavaIdentifierPart c = true := by
      rw [← hchars] at h
      obtain ⟨h, -⟩ := h
      cases hname : (normalizedName java name).toList with
      | nil =>
          rw [hname] at hc
          cases hc
      | cons d ds =>
          rw [hname] at h hc
          obtain ⟨hstart, hparts⟩ := Bool.and_eq_true_iff.mp h
          rcases List.mem_cons.mp hc with rfl | hmem
          · exact hjava.start_part c hstart
          · exact List.all_eq_true.mp hparts c hmem
    rw [← Bool.not_eq_true]
    intro hbreaks
    exact absurd ((hjava.literal c hbreaks).symm.trans hpart) (by decide)

/-! ## Names with a suffix -/

/-- A suffix is normalized for itself. -/
theorem normalizedChars_append (hjava : java.Unicode) (before cs ds : List Char) :
    ∃ front before', normalizedChars java before (cs ++ ds) = front ++ normalizedChars java before' ds := by
  induction cs generalizing before with
  | nil => exact ⟨[], before, rfl⟩
  | cons c cs ih =>
      obtain ⟨front, before', h⟩ := ih (c :: before)
      rw [List.cons_append, normalizedChars_cons hjava, h, ← List.append_assoc]
      exact ⟨_, before', rfl⟩

/-- A suffix is of letters and digits. -/
theorem isSuffixChar_letterOrDigit {c : Char} (h : Synchronizer.isSuffixChar c = true) :
    JavaText.isAsciiLetterOrDigit c = true ∧ c ≠ '-' := by
  simp only [Synchronizer.isSuffixChar, decide_eq_true_eq] at h
  constructor
  · simp only [JavaText.isAsciiLetterOrDigit, decide_eq_true_eq]
    rcases h with h | ⟨hfirst, hlast⟩
    · exact .inr (.inr h)
    · have hletters : 'v' ≤ 'z' := by decide
      exact .inl ⟨hfirst, Char.le_trans hlast hletters⟩
  · rintro rfl
    exact absurd h (by decide)

/-- A name with a suffix is no keyword. -/
theorem suffixed_not_keyword (hjava : java.Unicode) (front : String) (val : BitVec 32) :
    normalizedName java (front ++ "_" ++ Synchronizer.randomSuffix val) ∉ JavaText.keywords := by
  intro hkeyword
  obtain ⟨hlength, hchars⟩ := Synchronizer.toList_randomSuffix val
  obtain ⟨start, before, hstart⟩ := normalizedChars_append hjava []
    front.toList ('_' :: (Synchronizer.randomSuffix val).toList)
  have htoList : (normalizedName java (front ++ "_" ++ Synchronizer.randomSuffix val)).toList =
      start ++ '_' :: normalizedChars java ('_' :: before) (Synchronizer.randomSuffix val).toList := by
    have hname : (front ++ "_" ++ Synchronizer.randomSuffix val).toList =
        front.toList ++ '_' :: (Synchronizer.randomSuffix val).toList := by
      simp [String.toList_append]
    rw [toList_normalizedName, hname, hstart, normalizedChars_cons hjava, if_neg (by decide),
      lowerAt_underscore hjava]
    rfl
  -- something follows the underscore
  have hrest : normalizedChars java ('_' :: before) (Synchronizer.randomSuffix val).toList ≠ [] := by
    cases hsuffix : (Synchronizer.randomSuffix val).toList with
    | nil =>
        rw [hsuffix] at hlength
        cases hlength
    | cons c cs =>
        have hc := hchars c (hsuffix ▸ List.mem_cons_self)
        obtain ⟨d, ds, hlower, -⟩ := lowerAt_spec hjava ('_' :: before) cs c
        rw [normalizedChars_cons hjava, if_neg (isSuffixChar_letterOrDigit hc).2, hlower]
        exact List.cons_ne_nil _ _
  have honly : ∀ word ∈ JavaText.keywords, '_' ∈ word.toList → word.toList.length = 1 := by
    decide
  have hone := honly _ hkeyword (by rw [htoList]; simp)
  rw [htoList, List.length_append, List.length_cons] at hone
  exact hrest (List.length_eq_zero_iff.mp (by omega))

/-- A suffix goes on with an identifier, and is one with the underscore before it. -/
theorem identifierChars_suffixed (hjava : java.Unicode) (cs : List Char) (val : BitVec 32) :
    java.identifierChars (withoutHyphens (cs ++ '_' :: (Synchronizer.randomSuffix val).toList)) = true ↔
      withoutHyphens cs = [] ∨ java.identifierChars (withoutHyphens cs) = true := by
  have hchars := (Synchronizer.toList_randomSuffix val).2
  have hsuffix : withoutHyphens ('_' :: (Synchronizer.randomSuffix val).toList) =
      '_' :: (Synchronizer.randomSuffix val).toList := by
    refine List.filter_eq_self.mpr fun c hc => ?_
    rw [decide_eq_true_eq]
    rcases List.mem_cons.mp hc with rfl | hmem
    · decide
    · exact (isSuffixChar_letterOrDigit (hchars c hmem)).2
  have hparts : (Synchronizer.randomSuffix val).toList.all java.isJavaIdentifierPart = true :=
    List.all_eq_true.mpr fun c hc =>
      hjava.letterOrDigit c (isSuffixChar_letterOrDigit (hchars c hc)).1
  have happend : withoutHyphens (cs ++ '_' :: (Synchronizer.randomSuffix val).toList) =
      withoutHyphens cs ++ '_' :: (Synchronizer.randomSuffix val).toList := by
    unfold withoutHyphens at hsuffix ⊢
    rw [List.filter_append, hsuffix]
  rw [happend]
  cases withoutHyphens cs with
  | nil =>
      refine iff_of_true ?_ (.inl rfl)
      show (java.isJavaIdentifierStart '_' && _) = true
      rw [hjava.underscore, hparts]
      rfl
  | cons c cs =>
      simp [JavaText.identifierChars, List.all_append, hparts, hjava.start_part _ hjava.underscore]

/-! ## Names of connections -/

/-- `createDataSource` names a new connection and registers a data source under the name. -/
structure Creates (teiid : Teiid) (env : Env) (s : Synchronizer) (scd : DefaultSyndesisDataSource)
    (name : String) : Prop where
  unnamed : scd.teiidName = none
  /-- no row of the source is there, so a name is drawn for it -/
  new : s.findSchemaBySourceId scd.syndesisConnectionId = none
  unregistered : name ∉ s.datasources.map (·.1)
  registered : name ∈ (Synchronizer.createDataSource teiid env s scd).datasources.map (·.1)

/-- Registering adds at most its own name. -/
theorem registered_cases {env : Env} {s : Synchronizer} {scd : DefaultSyndesisDataSource}
    {teiidName name : String}
    (h : name ∈ (Synchronizer.registerDataSource env s scd teiidName).datasources.map (·.1)) :
    name ∈ s.datasources.map (·.1) ∨ name = teiidName := by
  unfold Synchronizer.registerDataSource at h
  split at h
  · exact .inl h
  · split at h
    · rw [List.map_append, List.mem_append] at h
      rcases h with hold | hnew
      · exact .inl hold
      · exact .inr (List.mem_singleton.mp hnew)
    · exact .inl h

variable {teiid : Teiid} {env : Env} {s : Synchronizer} {scd : DefaultSyndesisDataSource}
  {name : String}

/-- The name is the one an attempt has come to. -/
theorem Creates.nameToUse (h : Creates teiid env s scd name) :
    ∃ val, name = Synchronizer.nameToUse teiid s scd.syndesisName val := by
  have hregistered := h.registered
  unfold Synchronizer.createDataSource at hregistered
  rw [h.unnamed] at hregistered
  dsimp only at hregistered
  cases hunique : Synchronizer.uniqueName teiid env s scd with
  | none =>
      rw [hunique] at hregistered
      exact absurd hregistered h.unregistered
  | some result =>
      obtain ⟨t, teiidName⟩ := result
      rw [hunique] at hregistered
      have hdatasources := (Synchronizer.uniqueName_named hunique).datasources
      obtain ⟨attempt, -, hattempt⟩ := List.exists_of_findSome?_eq_some hunique
      rcases registered_cases hregistered with hold | rfl
      · refine absurd ?_ h.unregistered
        rw [← hdatasources]
        exact hold
      · exact ⟨_, (Synchronizer.getUniqueKomodoName_new h.new (toOption_eq_some.mp hattempt)).1⟩

/-- The cleaned name is reserved or in use, so it gets a suffix. -/
def taken (teiid : Teiid) (s : Synchronizer) (cleaned : String) : Prop :=
  (teiid.reservedNames.any (teiid.equalsIgnoreCase cleaned) ||
    Synchronizer.isNameInUse teiid s cleaned) = true

/-- The generated Java is well formed exactly if what is left of the name of the connection is an
identifier; only with a suffix it may also be empty or a keyword. -/
theorem wellFormed_created_iff (hjava : java.Unicode) (h : Creates teiid env s scd name) :
    WellFormedName java (normalizedName java name) ↔
      taken teiid s (Synchronizer.komodoName scd.syndesisName) ∧
        withoutHyphens (Synchronizer.komodoName scd.syndesisName).toList = [] ∨
      java.identifierChars (withoutHyphens (Synchronizer.komodoName scd.syndesisName).toList) = true ∧
        (taken teiid s (Synchronizer.komodoName scd.syndesisName) ∨
          removeHyphens (java.toLowerCase (Synchronizer.komodoName scd.syndesisName)) ∉
            JavaText.keywords) := by
  obtain ⟨val, rfl⟩ := h.nameToUse
  rw [wellFormed_normalized hjava]
  -- a name that was taken bears a suffix, which makes no keyword
  rcases Synchronizer.nameToUse_cases teiid s scd.syndesisName val with ⟨htaken, huse⟩ | ⟨hfree, huse⟩
  · have hyes : taken teiid s (Synchronizer.komodoName scd.syndesisName) := htaken
    have htoList : (Synchronizer.komodoName scd.syndesisName ++ "_" ++
          Synchronizer.randomSuffix val).toList =
        (Synchronizer.komodoName scd.syndesisName).toList ++
          '_' :: (Synchronizer.randomSuffix val).toList := by
      simp [String.toList_append]
    rw [huse, and_iff_left (suffixed_not_keyword hjava _ val), htoList, identifierChars_suffixed hjava]
    simp only [hyes, true_and, true_or, and_true]
  · have hno : ¬taken teiid s (Synchronizer.komodoName scd.syndesisName) := by
      unfold taken
      rw [hfree]
      decide
    rw [huse]
    simp only [hno, false_and, false_or]
    rfl

/-- Every data source can be made, and the random number is always the same. -/
def sevens : Env := { createsDatasource := fun _ => true, nextInt := fun _ _ => 7 }

/-- A name with a hyphen, which the normalization removes. -/
theorem wellFormed_created_iff_orders :
    Creates Synchronizer.asciiTeiid sevens {} (Synchronizer.namedSource "my-orders") "my-orders" ∧
      WellFormedName .ascii (normalizedName .ascii "my-orders") := by
  have hcreates :
      Creates Synchronizer.asciiTeiid sevens {} (Synchronizer.namedSource "my-orders") "my-orders" :=
    ⟨rfl, rfl, List.not_mem_nil, by decide⟩
  refine ⟨hcreates, (wellFormed_created_iff JavaText.unicode_ascii hcreates).mpr (.inr ⟨?_, .inr ?_⟩)⟩
  · decide
  · decide

/-- A connection `1abc` makes a class that does not compile. -/
theorem digit_begins_method :
    ¬∀ (java : JavaText) (teiid : Teiid) (env : Env) (s : Synchronizer)
        (scd : DefaultSyndesisDataSource) (name : String), java.Unicode → Creates teiid env s scd name →
      WellFormedName java (normalizedName java name) := by
  intro h
  have hcreates : Creates Synchronizer.asciiTeiid sevens {} (Synchronizer.namedSource "1abc") "1abc" :=
    ⟨rfl, rfl, List.not_mem_nil, by decide⟩
  have hname := h .ascii _ _ _ _ _ JavaText.unicode_ascii hcreates
  exact absurd hname.1 (by decide)

end TeiidSyndesis.OpenShift
