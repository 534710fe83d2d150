import Mathlib.Tactic.SplitIfs
import ActionWiring.Files.Workspace
import ActionWiring.Proofs.Outcomes

namespace ActionWiring

namespace Content

theorem text?_ofText (text : String) : (ofText text).text? = some text := by
  rw [ofText, text?, String.fromUTF8?, String.toUTF8_eq_toByteArray, dif_pos text.isValidUTF8]
  rfl

theorem length_utf8_le (cs : List Char) :
    (cs.flatMap String.utf8EncodeChar).length ≤ 4 * cs.length := by
  induction cs with
  | nil => exact Nat.zero_le _
  | cons c cs ih =>
      have hc := c.utf8Size_le_four
      rw [List.flatMap_cons, List.length_append, String.length_utf8EncodeChar, List.length_cons]
      omega

theorem size_ofText_le (cs : List Char) : (ofText (String.ofList cs)).size ≤ 4 * cs.length := by
  have hsize : (ofText (String.ofList cs)).size = (cs.flatMap String.utf8EncodeChar).length :=
    List.size_toByteArray
  rw [hsize]
  exact length_utf8_le cs

end Content

namespace Workspace

variable {w w' : Workspace} {place start reached other : Place} {node : Node} {content : Content}
  {cs : List String} {path text : String}

def Open (w : Workspace) (place : Place) : Prop :=
  ∀ passed, passed <+: place → passed ≠ place → w.node? passed = some .directory

theorem open_top (w : Workspace) : w.Open [] := fun _ habove hne =>
  absurd (List.prefix_nil.1 habove) hne

theorem Open.snoc (h : w.Open place) (hplace : w.node? place = some .directory) (name : String) :
    w.Open (place ++ [name]) := by
  intro passed habove hne
  rcases List.prefix_concat_iff.1 habove with rfl | habove
  · exact absurd rfl hne
  · by_cases hpassed : passed = place
    · rw [hpassed, hplace]
    · exact h passed habove hpassed

theorem Open.parent (h : w.Open place) (hplace : w.node? place = some .directory) :
    w.Open place.parent := by
  rw [Place.parent]
  split
  · exact h.snoc hplace Place.upward
  · intro passed habove hne
    have hlength : passed.length < place.length := by
      have hshorter := habove.length_le
      have hdrop : passed.length ≠ place.dropLast.length := fun heq =>
        hne (habove.eq_of_length heq)
      rw [List.length_dropLast] at hshorter hdrop
      omega
    refine h passed (habove.trans place.dropLast_prefix) ?_
    rintro rfl
    exact Nat.lt_irrefl _ hlength

def advance (place : Place) (c : String) : Except OsError Place :=
  if c = "" || c = "." then .ok place
  else if c = ".." then .ok place.parent
  else if longestName < c.utf8ByteSize then .error .nameTooLong
  else .ok (place ++ [c])

theorem follow_cons {c : String} (hplace : w.node? place = some .directory) :
    w.follow place (c :: cs) = advance place c >>= fun next => w.follow next cs := by
  rw [follow, hplace, advance]
  split_ifs with hstay hup hlong
  · rfl
  · rfl
  · rfl
  · rfl

theorem follow_cons_eq_ok_iff {c : String} :
    w.follow place (c :: cs) = .ok reached ↔
      w.node? place = some .directory ∧
        ∃ next, advance place c = .ok next ∧ w.follow next cs = .ok reached := by
  cases hplace : w.node? place with
  | none => simp [follow, hplace]
  | some node =>
      cases node with
      | file content => simp [follow, hplace]
      | directory => rw [follow_cons hplace, bind_eq_ok, eq_self, true_and]

theorem Open.advance (h : w.Open place) (hplace : w.node? place = some .directory) {c : String}
    {next : Place} (hnext : advance place c = .ok next) : w.Open next := by
  rw [Workspace.advance] at hnext
  split_ifs at hnext with hstay hup hlong
  · cases hnext
    exact h
  · cases hnext
    exact h.parent hplace
  · cases hnext
    exact h.snoc hplace c

theorem Open.follow (h : w.Open place) (hreached : w.follow place cs = .ok reached) :
    w.Open reached := by
  induction cs generalizing place with
  | nil =>
      cases hreached
      exact h
  | cons c cs ih =>
      obtain ⟨hplace, next, hnext, hrest⟩ := follow_cons_eq_ok_iff.1 hreached
      exact ih (h.advance hplace hnext) hrest

theorem lookup_filter_of_ne {entries : List (Place × Node)} (hne : other ≠ place) :
    (entries.filter fun e => e.1 != place).lookup other = entries.lookup other := by
  induction entries with
  | nil => rfl
  | cons e entries ih =>
      obtain ⟨key, node⟩ := e
      by_cases hkey : key = place
      · have hother : (other == key) = false := beq_false_of_ne (hkey ▸ hne)
        rw [List.filter_cons_of_neg (by simp [hkey]), List.lookup_cons, hother, ih]
      · rw [List.filter_cons_of_pos (by simp [hkey]), List.lookup_cons, List.lookup_cons, ih]

theorem node?_put_self : (w.put place node).node? place = some node := by
  rw [node?, put, List.lookup_cons_self]

theorem any_filter_of_not_prefix {entries : List (Place × Node)} (h : ¬ other <+: place) :
    ((entries.filter fun e => e.1 != place).any fun e => other.isPrefixOf e.1) =
      entries.any fun e => other.isPrefixOf e.1 := by
  rw [Bool.eq_iff_iff, List.any_eq_true, List.any_eq_true]
  constructor
  · rintro ⟨e, he, habove⟩
    exact ⟨e, (List.mem_filter.1 he).1, habove⟩
  · rintro ⟨e, he, habove⟩
    refine ⟨e, List.mem_filter.2 ⟨he, ?_⟩, habove⟩
    rw [bne_iff_ne]
    rintro rfl
    exact h (List.isPrefixOf_iff_prefix.1 habove)

theorem node?_put_of_ne (hopen : w.Open place) (hne : other ≠ place) :
    (w.put place node).node? other = w.node? other := by
  have hlookup : (w.put place node).entries.lookup other = w.entries.lookup other := by
    rw [put, List.lookup_cons, beq_false_of_ne hne]
    exact lookup_filter_of_ne hne
  have hany : (w.put place node).entries.any (fun e => other.isPrefixOf e.1) =
      (other.isPrefixOf place ||
        (w.entries.filter fun e => e.1 != place).any fun e => other.isPrefixOf e.1) :=
    List.any_cons
  rw [node?, hlookup, hany]
  by_cases habove : other <+: place
  · have hbefore := hopen other habove hne
    rw [List.isPrefixOf_iff_prefix.2 habove, Bool.true_or, Bool.or_true, if_pos rfl, hbefore]
    rw [node?] at hbefore
    cases hfound : w.entries.lookup other with
    | none => rfl
    | some found => rwa [hfound] at hbefore
  · have hfalse : other.isPrefixOf place = false :=
      Bool.eq_false_iff.2 fun h => habove (List.isPrefixOf_iff_prefix.1 h)
    rw [hfalse, Bool.false_or, any_filter_of_not_prefix habove, ← node?]

structure Rewritten (w w' : Workspace) (place : Place) (content : Content) : Prop where
  notDirectory : w.node? place ≠ some .directory
  held : w'.node? place = some (.file content)
  others : ∀ other, other ≠ place → w'.node? other = w.node? other

namespace Rewritten

variable (h : w.Rewritten w' place content)

include h

theorem follow (hreached : w.follow start cs = .ok reached) :
    w'.follow start cs = .ok reached := by
  induction cs generalizing start with
  | nil => exact hreached
  | cons c cs ih =>
      obtain ⟨hstart, next, hnext, hrest⟩ := follow_cons_eq_ok_iff.1 hreached
      have hne : start ≠ place := by
        rintro rfl
        exact h.notDirectory hstart
      rw [follow_cons_eq_ok_iff, h.others start hne]
      exact ⟨hstart, next, hnext, ih hrest⟩

theorem locate (hlocate : w.locate path = .ok reached) : w'.locate path = .ok reached := by
  obtain ⟨cs, hcs, hfollow⟩ := bind_eq_ok.1 hlocate
  exact bind_eq_ok.2 ⟨cs, hcs, h.follow hfollow⟩

theorem find_self (hlocate : w.locate path = .ok place) : w'.find path = .ok (.file content) := by
  refine bind_eq_ok.2 ⟨place, h.locate hlocate, ?_⟩
  rw [h.held]
  rfl

theorem find_other (hfind : w.find path = .ok node) (hne : w.locate path ≠ .ok place) :
    w'.find path = .ok node := by
  obtain ⟨other, hlocate, hnode⟩ := bind_eq_ok.1 hfind
  refine bind_eq_ok.2 ⟨other, h.locate hlocate, ?_⟩
  rw [h.others other fun heq => hne (heq ▸ hlocate)]
  exact hnode

end Rewritten

theorem locate_of_filePlace (h : w.filePlace path = .ok place) : w.locate path = .ok place := by
  obtain ⟨cs, hcs, hplace⟩ := bind_eq_ok.1 h
  refine bind_eq_ok.2 ⟨cs, hcs, ?_⟩
  split at hplace
  · obtain ⟨-, -, ⟨⟩⟩ := bind_eq_ok.1 hplace
  · exact hplace

theorem open_of_locate (h : w.locate path = .ok place) : w.Open place := by
  obtain ⟨cs, -, hfollow⟩ := bind_eq_ok.1 h
  exact (open_top w).follow hfollow

theorem rewritten_of_write (h : w.write path text = .ok w') :
    ∃ place, w.locate path = .ok place ∧ w.Rewritten w' place (.ofText text) := by
  obtain ⟨place, hplace, hput⟩ := bind_eq_ok.1 h
  have hlocate := locate_of_filePlace hplace
  split at hput
  · cases hput
  · rename_i hdirectory
    cases hput
    exact ⟨place, hlocate, hdirectory, node?_put_self, fun other hne =>
      node?_put_of_ne (open_of_locate hlocate) hne⟩

end Workspace

end ActionWiring
