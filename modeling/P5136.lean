import P5136.Accounts.LoginGate
import P5136.Assets.ClosureLaw
import P5136.Assets.InstallAgain
import P5136.Assets.ReferenceLaw
import P5136.Assets.StageFidelity
import P5136.Assets.ThemeTabPlace
import P5136.Connector.InstallationLaw
import P5136.Connector.PinRoundTrip
import P5136.Core.DecimalFloat
import P5136.Core.DecimalParse
import P5136.Core.EncodedScalar
import P5136.Core.Frame
import P5136.Identity.Authentic
import P5136.Messenger.Safety
import P5136.MyRoom.Admission
import P5136.Profile.FavoriteItems
import P5136.Profile.Floater
import P5136.Profile.KartLevel
import P5136.Profile.Linear
import P5136.Race.ObjectRuns
import P5136.Rho5.AaaAgree
import P5136.Rho5.AaaMounts
import P5136.Rho5.LegacyTree
import P5136.Rho5.ReadBack
import P5136.Session.TimeAttackRuns
import P5136.Udp.Tombstones
import P5136.World.Directory
import P5136.World.LoadingLaw
import P5136.World.Pickups
import P5136.World.Refusals
import P5136.Xun.Chargers
