import SourcePreview.Highlight.Claims
import Mathlib.Data.List.Pairwise

/-!
# Claimed stretches stay in order

The claimed stretches are non-empty, in order and apart from each other, and every attempt to
claim one more keeps them so.  Because of this order it is enough to look at the first stretch
that ends behind the start of a new one, or else at the last one that starts before its end: the new
one is taken exactly if it meets none of all the stretches that were claimed before, and then
nothing else changes.
-/

namespace SourcePreview

namespace Claim

/-- Whether two stretches have a byte in common, provided that neither is empty. -/
def Meets (left right : Claim) : Prop :=
  left.start < right.stop ∧ right.start < left.stop

instance (left right : Claim) : Decidable (left.Meets right) :=
  inferInstanceAs (Decidable (_ ∧ _))

/-- Whether stretches are non-empty, in order and apart from each other. -/
structure Ordered (stretches : List Claim) : Prop where
  nonempty : ∀ stretch ∈ stretches, stretch.start < stretch.stop
  apart : stretches.Pairwise fun left right => left.stop ≤ right.start

/-- Whether a stretch may be claimed besides others. -/
def Fits (stretch : Claim) (claimed : List Claim) : Prop :=
  stretch.start < stretch.stop ∧ ∀ other ∈ claimed, ¬ stretch.Meets other

/-- A stretch between those that end before it and those that start after it. -/
theorem Ordered.insert
    {before after : List Claim} {stretch : Claim}
    (ordered : Ordered (before ++ after))
    (nonempty : stretch.start < stretch.stop)
    (beforeEnds : ∀ other ∈ before, other.stop ≤ stretch.start)
    (afterStarts : ∀ other ∈ after, stretch.stop ≤ other.start) :
    Ordered (before ++ stretch :: after) := by
  constructor
  · intro other member
    rcases List.mem_append.mp member with earlier | later
    · exact ordered.nonempty other (List.mem_append_left _ earlier)
    · rcases List.mem_cons.mp later with rfl | later
      · exact nonempty
      · exact ordered.nonempty other (List.mem_append_right _ later)
  · obtain ⟨beforeApart, afterApart, across⟩ :=
      List.pairwise_append.mp ordered.apart
    refine List.pairwise_append.mpr ⟨beforeApart, ?_, ?_⟩
    · exact List.pairwise_cons.mpr ⟨afterStarts, afterApart⟩
    · intro earlier earlierMember later laterMember
      rcases List.mem_cons.mp laterMember with rfl | laterMember
      · exact beforeEnds earlier earlierMember
      · exact across earlier earlierMember later laterMember

/-- Ordered stretches that meet are the same. -/
theorem Ordered.eq_of_meets
    {stretches : List Claim} (ordered : Ordered stretches)
    {left right : Claim}
    (leftMember : left ∈ stretches) (rightMember : right ∈ stretches)
    (meets : left.Meets right) :
    left = right := by
  by_contra different
  have separated := ordered.apart.imp
    (fun {first second : Claim} (apart : first.stop ≤ second.start) =>
      show ¬ first.Meets second by unfold Meets; omega)
  have symmetric : Std.Symm fun first second : Claim => ¬ first.Meets second :=
    ⟨fun first second apart meets => apart ⟨meets.2, meets.1⟩⟩
  exact separated.forall leftMember rightMember different meets

theorem Ordered.nodup
    {stretches : List Claim} (ordered : Ordered stretches) : stretches.Nodup := by
  refine ordered.apart.imp_of_mem ?_
  rintro left right leftMember _ apart rfl
  have nonempty := ordered.nonempty left leftMember
  omega

/-- Ordered stretches that start at the same byte are the same. -/
theorem Ordered.eq_of_start_eq
    {stretches : List Claim} (ordered : Ordered stretches)
    {left right : Claim}
    (leftMember : left ∈ stretches) (rightMember : right ∈ stretches)
    (sameStart : left.start = right.start) :
    left = right := by
  have leftNonempty := ordered.nonempty left leftMember
  have rightNonempty := ordered.nonempty right rightMember
  exact ordered.eq_of_meets leftMember rightMember ⟨by omega, by omega⟩

/-- Whether the last of some stretches that starts before the end of another one reaches behind its
start. -/
def isReachedBy (stretch : Claim) (claimed : List Claim) : Bool :=
  (claimed.reverse.find? fun other => other.start < stretch.stop).any fun last =>
    stretch.start < last.stop

/-- Of ordered stretches the last one that starts before the end of another tells whether this one
fits: those in front of it end even earlier. -/
theorem Ordered.fits_iff
    {claimed : List Claim} (ordered : Ordered claimed) {stretch : Claim} :
    stretch.Fits claimed ↔
      stretch.start < stretch.stop ∧ stretch.isReachedBy claimed = false := by
  refine and_congr_right fun nonempty => ?_
  rw [isReachedBy, Option.any_eq_false]
  constructor
  · intro apart last found
    have starts := List.find?_some found
    rw [decide_eq_true_eq] at starts
    rw [decide_eq_false_iff_not]
    exact fun reaches =>
      apart last (List.mem_reverse.mp (List.mem_of_find?_eq_some found)) ⟨reaches, starts⟩
  · intro ends other member meets
    obtain ⟨last, found⟩ :
        ∃ last, (claimed.reverse.find? fun other => other.start < stretch.stop) = some last := by
      rw [← Option.isSome_iff_exists, List.find?_isSome]
      exact ⟨other, List.mem_reverse.mpr member, decide_eq_true meets.2⟩
    have lastEnds := ends last found
    rw [decide_eq_false_iff_not, Nat.not_lt] at lastEnds
    obtain ⟨_, behind, front, split, startsLater⟩ := List.find?_eq_some_iff_append.mp found
    have whole : claimed = front.reverse ++ last :: behind.reverse := by
      rw [← List.reverse_reverse claimed, split]
      simp
    have inFront := (List.pairwise_append.mp (whole ▸ ordered.apart)).2.2
    have lastNonempty := ordered.nonempty last (by rw [whole]; simp)
    have overlap := meets.1
    rw [whole] at member
    rcases List.mem_append.mp member with early | late
    · have gap := inFront other early last List.mem_cons_self
      omega
    · rcases List.mem_cons.mp late with rfl | late
      · omega
      · have later := startsLater other (List.mem_reverse.mp late)
        simp only [Bool.not_eq_true', decide_eq_false_iff_not] at later
        exact later meets.2

/-- Whether one stretch starts no later than another. -/
def startsBy (left right : Claim) : Bool :=
  decide (left.start ≤ right.start)

/-- Ordered stretches are what sorting by the start makes of them in any other order. -/
theorem Ordered.eq_mergeSort
    {stretches others : List Claim} (ordered : Ordered stretches)
    (same : stretches.Perm others) :
    stretches = others.mergeSort startsBy := by
  have sorted : (others.mergeSort startsBy).Pairwise (startsBy · ·) :=
    List.pairwise_mergeSort
      (by simp only [startsBy, decide_eq_true_eq]; omega)
      (by simp only [startsBy, Bool.or_eq_true, decide_eq_true_eq]; omega)
      others
  have rearranged : stretches.Perm (others.mergeSort startsBy) :=
    same.trans (List.mergeSort_perm others startsBy).symm
  have inOrder : stretches.Pairwise (startsBy · ·) := by
    refine ordered.apart.imp_of_mem ?_
    intro left right leftMember _ apart
    have leftNonempty := ordered.nonempty left leftMember
    simp only [startsBy, decide_eq_true_eq]
    omega
  refine List.Perm.eq_of_pairwise ?_ inOrder sorted rearranged
  intro left right leftMember rightMember leftFirst rightFirst
  simp only [startsBy, decide_eq_true_eq] at leftFirst rightFirst
  exact
    ordered.eq_of_start_eq leftMember
      (rearranged.mem_iff.mpr rightMember) (by omega)

end Claim

namespace Claims

open Claim

theorem toList_eq (claims : Claims) :
    claims.toList = claims.earlier.reverse ++ claims.later :=
  List.reverseAux_eq

@[simp]
theorem toList_none : none.toList = [] := rfl

@[simp]
theorem toList_moveBack (place : Nat) (earlier later : List Claim) :
    (moveBack place earlier later).toList = earlier.reverse ++ later := by
  induction earlier generalizing later with
  | nil => rfl
  | cons claim earlier ih =>
      rw [moveBack]
      split
      · exact toList_eq _
      · simpa using ih (claim :: later)

@[simp]
theorem toList_moveForward (place : Nat) (later earlier : List Claim) :
    (moveForward place later earlier).toList = earlier.reverse ++ later := by
  induction later generalizing earlier with
  | nil => exact toList_eq _
  | cons claim later ih =>
      rw [moveForward]
      split
      · simpa using ih (claim :: earlier)
      · exact toList_eq _

/-- Moving the split changes no stretch. -/
@[simp]
theorem toList_seek (claims : Claims) (place : Nat) :
    (claims.seek place).toList = claims.toList := by
  rw [seek, toList_moveForward, ← toList_eq, toList_moveBack, toList_eq]

/-- After moving back, every stretch before the split ends by the place. -/
theorem stop_le_of_mem_earlier_moveBack
    {place : Nat} {earlier later : List Claim}
    (ordered : Ordered (earlier.reverse ++ later))
    {claim : Claim} (member : claim ∈ (moveBack place earlier later).earlier) :
    claim.stop ≤ place := by
  induction earlier generalizing later with
  | nil => simp [moveBack] at member
  | cons last earlier ih =>
      rw [moveBack] at member
      split at member
      · next lastEnds =>
          rcases List.mem_cons.mp member with rfl | before
          · exact lastEnds
          · have passed :=
              (List.pairwise_append.mp ordered.apart).1
            rw [List.reverse_cons] at passed
            have apart : claim.stop ≤ last.start :=
              (List.pairwise_append.mp passed).2.2
                claim (List.mem_reverse.mpr before) last (by simp)
            have lastNonempty := ordered.nonempty last (by simp)
            omega
      · exact ih (by simpa using ordered) member

/-- Moving forward passes only stretches that end by the place. -/
theorem stop_le_of_mem_earlier_moveForward
    {place : Nat} {later earlier : List Claim}
    (before : ∀ claim ∈ earlier, claim.stop ≤ place)
    {claim : Claim} (member : claim ∈ (moveForward place later earlier).earlier) :
    claim.stop ≤ place := by
  induction later generalizing earlier with
  | nil => exact before claim member
  | cons first later ih =>
      rw [moveForward] at member
      split at member
      · next firstEnds =>
          exact ih (by simpa using ⟨firstEnds, before⟩) member
      · exact before claim member

/-- Moving forward stops in front of a stretch that ends behind the place. -/
theorem lt_stop_of_later_moveForward
    {place : Nat} {later earlier rest : List Claim} {next : Claim}
    (ahead : (moveForward place later earlier).later = next :: rest) :
    place < next.stop := by
  induction later generalizing earlier with
  | nil => simp [moveForward] at ahead
  | cons first later ih =>
      rw [moveForward] at ahead
      split at ahead
      · exact ih ahead
      · next notEnded =>
          cases ahead
          omega

/-- The stretches before the split that was sought end by the place. -/
theorem stop_le_of_mem_earlier_seek
    {claims : Claims} {place : Nat} (ordered : Ordered claims.toList)
    {claim : Claim} (member : claim ∈ (claims.seek place).earlier) :
    claim.stop ≤ place := by
  rw [toList_eq] at ordered
  exact
    stop_le_of_mem_earlier_moveForward
      (fun _ => stop_le_of_mem_earlier_moveBack ordered) member

/-- The split that was sought and the stretches on its sides make up the claimed ones. -/
theorem seek_append (claims : Claims) (place : Nat) :
    (claims.seek place).earlier.reverse ++ (claims.seek place).later =
      claims.toList := by
  rw [← toList_eq, toList_seek]

/-- A stretch that meets no claimed one is taken in its place. -/
theorem add_of_fits
    {claims : Claims} {claim : Claim}
    (ordered : Ordered claims.toList) (fits : claim.Fits claims.toList) :
    Ordered (claims.add claim).toList ∧
      (claims.add claim).toList.Perm (claim :: claims.toList) := by
  obtain ⟨nonempty, apart⟩ := fits
  have whole := seek_append claims claim.start
  have earlierEnds :
      ∀ other ∈ (claims.seek claim.start).earlier.reverse,
        other.stop ≤ claim.start := fun other member =>
    stop_le_of_mem_earlier_seek ordered (List.mem_reverse.mp member)
  -- Of the stretches after the split only the first has to be looked at: the order does the rest.
  have laterStarts :
      ∀ other ∈ (claims.seek claim.start).later,
        claim.stop ≤ other.start := by
    cases later : (claims.seek claim.start).later with
    | nil => simp
    | cons next rest =>
        have nextEnds : claim.start < next.stop :=
          lt_stop_of_later_moveForward later
        have nextMember : next ∈ claims.toList := by
          simp [← whole, later]
        have nextStarts : claim.stop ≤ next.start := by
          by_contra early
          exact apart next nextMember ⟨nextEnds, by omega⟩
        have nextNonempty := ordered.nonempty next nextMember
        have restApart := ordered.apart
        rw [← whole, later] at restApart
        have behindNext :=
          (List.pairwise_cons.mp
            (List.pairwise_append.mp restApart).2.1).1
        intro other member
        rcases List.mem_cons.mp member with rfl | behind
        · exact nextStarts
        · have gap := behindNext other behind
          omega
  have taken :
      (claims.add claim).toList =
        (claims.seek claim.start).earlier.reverse ++
          claim :: (claims.seek claim.start).later := by
    rw [add, if_pos nonempty]
    cases later : (claims.seek claim.start).later with
    | nil => simp [toList_eq, later]
    | cons next rest =>
        have nextStarts : claim.stop ≤ next.start :=
          laterStarts next (by simp [later])
        simp [toList_eq, later, nextStarts]
  rw [taken]
  constructor
  · exact (whole ▸ ordered).insert nonempty earlierEnds laterStarts
  · rw [← whole]
    exact List.perm_middle

/-- A stretch that is empty or meets a claimed one changes no stretch. -/
theorem toList_add_of_not_fits
    {claims : Claims} {claim : Claim}
    (ordered : Ordered claims.toList) (refused : ¬ claim.Fits claims.toList) :
    (claims.add claim).toList = claims.toList := by
  rw [add]
  split
  · next nonempty =>
      obtain ⟨other, member, meets⟩ :
          ∃ other ∈ claims.toList, claim.Meets other := by
        by_contra none
        exact refused ⟨nonempty, fun other member meets =>
          none ⟨other, member, meets⟩⟩
      have whole := seek_append claims claim.start
      have behind : other ∈ (claims.seek claim.start).later := by
        rw [← whole] at member
        rcases List.mem_append.mp member with earlier | later
        · have ends :=
            stop_le_of_mem_earlier_seek ordered
              (List.mem_reverse.mp earlier)
          have overlap := meets.1
          omega
        · exact later
      cases later : (claims.seek claim.start).later with
      | nil => simp [later] at behind
      | cons next rest =>
          have nextStarts : next.start < claim.stop := by
            have parts := ordered.apart
            rw [← whole, later] at parts
            have apart :=
              (List.pairwise_cons.mp
                (List.pairwise_append.mp parts).2.1).1
            have nextNonempty :=
              ordered.nonempty next (by simp [← whole, later])
            rw [later] at behind
            rcases List.mem_cons.mp behind with rfl | after
            · exact meets.2
            · have gap := apart other after
              have overlap := meets.2
              omega
          have notBefore : ¬ claim.stop ≤ next.start := by omega
          simp [later, notBefore]
  · rfl

/-- A stretch is taken unless it is empty or the last claimed one that starts before its end reaches
behind its start. -/
theorem perm_toList_add
    {claims : Claims} (ordered : Ordered claims.toList) (claim : Claim) :
    (claims.add claim).toList.Perm
      (if claim.start < claim.stop ∧ claim.isReachedBy claims.toList = false then
        claim :: claims.toList
      else claims.toList) := by
  split
  · next free => exact (add_of_fits ordered (ordered.fits_iff.mpr free)).2
  · next taken =>
      rw [toList_add_of_not_fits ordered (mt ordered.fits_iff.mp taken)]

end Claims

end SourcePreview
