import MetricLedger.Http.Target
import MetricLedger.Proofs.Result
import MetricLedger.Proofs.Text.Pieces

/-!
# Where the path of a target stands

The path of a target is the one that is written in it, byte for byte: no escape is undone, no case
is folded and no slash is dropped. It stands at the front, or behind a scheme and an authority, and
goes as far as the first question mark or number sign.
-/

namespace MetricLedger

namespace Http.Target

/-- Bytes that do not end a path. -/
def isPathPart (b : UInt8) : Bool := b != ascii '?' && b != ascii '#'

/-- What stands between a scheme and an authority. -/
def schemeEnd : Bytes := "://".toList.map ascii

/-- Nothing, or a query or a fragment. -/
def Trails (rest : Bytes) : Prop := ∀ b ∈ rest.head?, isPathPart b = false

/-- Targets in which a path is written, alone or in a URL. -/
inductive Names (path : Bytes) : Bytes → Prop
  | origin {rest : Bytes} (trails : Trails rest) : Names path (path ++ rest)
  | absolute {scheme authority rest : Bytes} (ofScheme : ∀ b ∈ scheme, isSchemeByte b = true)
      (ofAuthority : ∀ b ∈ authority, isAuthorityEnd b = false) (trails : Trails rest) :
      Names path (scheme ++ (schemeEnd ++ (authority ++ (path ++ rest))))

/-! ## A path and what trails it -/

/-- The path that is read is what stands before a query or a fragment. -/
theorem path_ofPath {s : Bytes} {t : Target} (h : ofPath s = .ok t) :
    t.path = if (s.takeWhile isPathPart).isEmpty then [ascii '/'] else s.takeWhile isPathPart := by
  have cut : s.takeWhile isPathPart =
      (s.takeWhile (· != ascii '#')).takeWhile (· != ascii '?') := by
    rw [List.takeWhile_takeWhile]
    congr 1
    funext b
    rw [Bool.eq_iff_iff]
    simp [isPathPart]
  rw [cut, Text.takeWhile_eq_cut?]
  simp only [ofPath] at h
  cases found : Text.cut? (ascii '?') (s.takeWhile (· != ascii '#')) with
  | none =>
    simp only [found] at h
    split at h
    · cases h; rfl
    · cases h
  | some parts =>
    simp only [found] at h
    split at h
    · cases h; rfl
    · cases h

theorem path_ofPath_iff {path : Bytes} (longer : 1 < path.length)
    (plain : ∀ b ∈ path, isPathPart b = true) {s : Bytes} {t : Target} (h : ofPath s = .ok t) :
    t.path = path ↔ ∃ rest, s = path ++ rest ∧ Trails rest := by
  have read := path_ofPath h
  constructor
  · intro same
    have cut : s.takeWhile isPathPart = path := by
      rw [same] at read
      split at read
      · subst read; simp at longer
      · exact read.symm
    obtain ⟨whole, -, trails⟩ := Text.append_of_takeWhile cut
    exact ⟨_, whole, trails⟩
  · rintro ⟨rest, rfl, trails⟩
    rw [Text.takeWhile_append_stop plain trails] at read
    cases path with
    | nil => simp at longer
    | cons b path => exact read

/-! ## The scheme and the authority -/

theorem afterScheme?_append {scheme : Bytes} (ofScheme : ∀ b ∈ scheme, isSchemeByte b = true)
    (rest : Bytes) : afterScheme? (scheme ++ (schemeEnd ++ rest)) =
      if 64 < scheme.length then .error .schemeTooLong else .ok (some rest) := by
  have cut : (scheme ++ (schemeEnd ++ rest)).takeWhile isSchemeByte = scheme :=
    Text.takeWhile_append_stop ofScheme (by rintro b ⟨⟩; decide)
  have found : Text.after? ("://".toList.map ascii) (schemeEnd ++ rest) = some rest :=
    Text.after?_append schemeEnd rest
  simp only [afterScheme?, cut, List.drop_left, found]

theorem append_of_afterScheme? {s rest : Bytes} (h : afterScheme? s = .ok (some rest)) :
    ∃ scheme, s = scheme ++ (schemeEnd ++ rest) ∧ ∀ b ∈ scheme, isSchemeByte b = true := by
  obtain ⟨whole, ofScheme, -⟩ := Text.append_of_takeWhile (p := isSchemeByte) (s := s) rfl
  refine ⟨s.takeWhile isSchemeByte, ?_, ofScheme⟩
  simp only [afterScheme?] at h
  split at h
  · next found =>
    split at h
    · cases h
    · cases h
      exact whole.trans (congrArg _ (Text.eq_append_of_after? found))
  · cases h

theorem append_of_cutAuthority {s authority rest : Bytes}
    (h : cutAuthority s = .ok (authority, rest)) :
    s.takeWhile (fun b => !isAuthorityEnd b) = authority ∧ s = authority ++ rest := by
  obtain ⟨scan, -, h⟩ := bind_eq_ok_iff.mp h
  split at h
  · cases h
  · cases h
    exact ⟨rfl, (Text.append_of_takeWhile rfl).1⟩

/-- A URL is read as what follows its authority. -/
theorem ofPath_of_ofUrl {scheme authority rest : Bytes} {t : Target}
    (ofScheme : ∀ b ∈ scheme, isSchemeByte b = true)
    (ofAuthority : ∀ b ∈ authority, isAuthorityEnd b = false)
    (stop : ∀ b ∈ rest.head?, isAuthorityEnd b = true)
    (h : ofUrl (scheme ++ (schemeEnd ++ (authority ++ rest))) = .ok t) : ofPath rest = .ok t := by
  rw [ofUrl, afterScheme?_append ofScheme] at h
  split at h
  · cases h
  · rw [ok_bind] at h
    obtain ⟨⟨cut, behind⟩, found, h⟩ := bind_eq_ok_iff.mp h
    obtain ⟨same, whole⟩ := append_of_cutAuthority found
    rw [Text.takeWhile_append_stop (by simpa using ofAuthority) (by simpa using stop)] at same
    subst same
    rw [List.append_cancel_left whole]
    dsimp only at h
    split at h
    · cases h
    · exact h

/-- What has a path and does not begin with it is a URL. -/
theorem absolute_of_ofUrl {s : Bytes} {t : Target} (h : ofUrl s = .ok t) (written : t.path ≠ []) :
    ∃ scheme authority rest, s = scheme ++ (schemeEnd ++ (authority ++ rest)) ∧
      (∀ b ∈ scheme, isSchemeByte b = true) ∧ (∀ b ∈ authority, isAuthorityEnd b = false) ∧
      ofPath rest = .ok t := by
  obtain ⟨behind?, found, h⟩ := bind_eq_ok_iff.mp h
  cases behind? with
  | none =>
    obtain ⟨⟨authority, rest⟩, -, h⟩ := bind_eq_ok_iff.mp h
    dsimp only at h
    split at h
    · cases h; exact absurd rfl written
    · cases h
  | some behind =>
    obtain ⟨scheme, rfl, ofScheme⟩ := append_of_afterScheme? found
    obtain ⟨⟨authority, rest⟩, cut, read⟩ := bind_eq_ok_iff.mp h
    obtain ⟨same, rfl⟩ := append_of_cutAuthority cut
    dsimp only at read
    split at read
    · cases read
    · refine ⟨scheme, authority, rest, rfl, ofScheme, fun b mem => ?_, read⟩
      rw [← same] at mem
      simpa using List.mem_takeWhile_imp mem

/-! ## Whole targets -/

/-- A text of one byte has no longer path. -/
theorem length_path_of_short {s : Bytes} {t : Target} (short : s.length ≤ 1)
    (h : parse s = .ok t) : t.path.length ≤ 1 := by
  match s with
  | [] => cases h
  | [b] =>
    have fits : ¬ 65534 < [b].length := by simp
    simp only [parse, if_neg fits] at h
    split at h
    · cases h; exact Nat.le_refl 1
    · obtain ⟨⟨authority, rest⟩, -, h⟩ := bind_eq_ok_iff.mp h
      dsimp only at h
      split at h
      · cases h; exact Nat.zero_le 1
      · cases h
  | _ :: _ :: _ => simp at short

/-- Any longer text is a path or a URL, which its first byte tells. -/
theorem parse_of_long {s : Bytes} (long : 1 < s.length) {t : Target} (h : parse s = .ok t) :
    (if s.head? = some (ascii '/') then ofPath s else ofUrl s) = .ok t := by
  unfold parse at h
  split at h
  · cases h
  · match s with
    | [] | [_] => simp at long
    | b :: c :: rest => simpa using h

/-- A target has a path if and only if the path is written in it. -/
theorem path_eq_iff {path s : Bytes} {t : Target} (h : parse s = .ok t)
    (root : path.head? = some (ascii '/')) (longer : 1 < path.length)
    (plain : ∀ b ∈ path, isPathPart b = true) : t.path = path ↔ Names path s := by
  constructor
  · rintro rfl
    have long : 1 < s.length := by
      by_contra short
      have := length_path_of_short (Nat.le_of_not_lt short) h
      omega
    have read := parse_of_long long h
    split at read
    · obtain ⟨rest, rfl, trails⟩ := (path_ofPath_iff longer plain read).mp rfl
      exact .origin trails
    · have written : t.path ≠ [] := by rintro none; simp [none] at longer
      obtain ⟨scheme, authority, rest, rfl, ofScheme, ofAuthority, read⟩ :=
        absolute_of_ofUrl read written
      obtain ⟨rest, rfl, trails⟩ := (path_ofPath_iff longer plain read).mp rfl
      exact .absolute ofScheme ofAuthority trails
  · intro names
    cases names with
    | @origin rest trails =>
      have read := parse_of_long (by rw [List.length_append]; omega) h
      rw [List.head?_append, root, Option.some_or, if_pos rfl] at read
      exact (path_ofPath_iff longer plain read).mpr ⟨rest, rfl, trails⟩
    | @absolute scheme authority rest ofScheme ofAuthority trails =>
      have read := parse_of_long (by simp only [List.length_append]; omega) h
      -- A URL does not begin with a slash, since schemes hold none.
      have first : (scheme ++ (schemeEnd ++ (authority ++ (path ++ rest)))).head? ≠
          some (ascii '/') := by
        cases scheme with
        | nil => exact fun slash => absurd (Option.some.inj slash) (by decide)
        | cons b scheme =>
          intro slash
          cases slash
          exact absurd (ofScheme (ascii '/') (List.mem_cons_self ..)) (by decide)
      rw [if_neg first] at read
      have stop : ∀ b ∈ (path ++ rest).head?, isAuthorityEnd b = true := by
        rw [List.head?_append, root]
        rintro b ⟨⟩
        decide
      exact (path_ofPath_iff longer plain (ofPath_of_ofUrl ofScheme ofAuthority stop read)).mpr
        ⟨rest, rfl, trails⟩

end Http.Target

end MetricLedger
