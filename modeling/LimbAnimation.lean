import LimbAnimation.Stage.Setup
import LimbAnimation.Stage.Basic
import LimbAnimation.Forms.Stage
import LimbAnimation.Playback.Description
import LimbAnimation.Proofs.Stage.Rejections
import LimbAnimation.Proofs.Stage.Performances
import LimbAnimation.Proofs.Stage.Independence
import LimbAnimation.Proofs.Stage.EffectiveRestrictions
import LimbAnimation.Proofs.ClipFile.Grammar
import LimbAnimation.Proofs.ClipFile.Usable
import LimbAnimation.Proofs.ClipFile.FirstFault
import LimbAnimation.Proofs.Playback.Push
import LimbAnimation.Proofs.Playback.Idle
import LimbAnimation.Proofs.Playback.Range
import LimbAnimation.Proofs.Playback.Restart
import LimbAnimation.Proofs.Playback.Lifecycle
import LimbAnimation.Proofs.Stage.Announcements
import LimbAnimation.Proofs.Library.Ledger
import LimbAnimation.Proofs.ClipFile.Noise
import LimbAnimation.Proofs.Playback.Ramps
import LimbAnimation.Proofs.Numbers
import LimbAnimation.Proofs.Playback.Departures
import LimbAnimation.Proofs.Playback.FadeOut
import LimbAnimation.Proofs.ClipFile.Cut
import LimbAnimation.Proofs.Text.Affixes
import LimbAnimation.Proofs.Text.Numeral
import LimbAnimation.Proofs.ClipFile.Spelling
import LimbAnimation.Proofs.ClipFile.KeyframeLines
import LimbAnimation.Proofs.RoundingError
import LimbAnimation.Proofs.Json.Decimals
import LimbAnimation.Proofs.Json.Numerals
import LimbAnimation.Proofs.Json.Lexing
import LimbAnimation.Proofs.Json.ReadsPrinted
import LimbAnimation.Proofs.Forms.Faithful
import LimbAnimation.Proofs.Restrictions.Text
import LimbAnimation.Proofs.Forms.Clip
import LimbAnimation.Proofs.Forms.Playback
import LimbAnimation.Proofs.Forms.Stage
import LimbAnimation.Proofs.SamePose
import LimbAnimation.Proofs.Playback.Limbs
import LimbAnimation.Proofs.Playback.Mirror
import LimbAnimation.Proofs.Playback.Sight
import LimbAnimation.Proofs.Playback.SameTime
import LimbAnimation.Proofs.Playback.Standstill
import LimbAnimation.Proofs.Curve.Hits
import LimbAnimation.Proofs.ClipFile.TimeOrder
import LimbAnimation.Proofs.Restrictions.Timeline
import LimbAnimation.Proofs.ClipFile.OneSheet
import LimbAnimation.Proofs.ClipFile.RestrictionTimes
import LimbAnimation.Proofs.Playback.TrackEnd
import LimbAnimation.Proofs.Playback.ShapeChanges
import LimbAnimation.Proofs.ClipFile.TokenOrder
import LimbAnimation.Proofs.ClipFile.Layout
import LimbAnimation.Proofs.ClipFile.BlockOrder
import LimbAnimation.Proofs.ClipFile.Conversion
import LimbAnimation.Proofs.ClipFile.Directives
import LimbAnimation.Proofs.Playback.Stopping
import LimbAnimation.Proofs.ClipFile.TokenRuns
import LimbAnimation.Proofs.Restrictions.CanonicalText
import LimbAnimation.Proofs.Library.Paths
import LimbAnimation.Proofs.Playback.BlendEnds
import LimbAnimation.Proofs.Text.PlainDecimal
