import InjectiveSdk.Go.Runtime
import InjectiveSdk.Go.Common
import InjectiveSdk.Go.BigInt
import InjectiveSdk.Go.Strings
import InjectiveSdk.Exchange.Order
import InjectiveSdk.Exchange.Margin
import InjectiveSdk.Exchange.Outcome
import InjectiveSdk.Exchange.Identity
import InjectiveSdk.Exchange.Msgs
import InjectiveSdk.Exchange.Markets
import InjectiveSdk.Proto.Wire
import InjectiveSdk.Proto.Marshal
import InjectiveSdk.Proto.Unmarshal
import InjectiveSdk.Proto.RoundTrip
import InjectiveSdk.Proto.Totality
import InjectiveSdk.Proto.Fields
import InjectiveSdk.Proto.Frame
import InjectiveSdk.Proto.Unknown
import InjectiveSdk.Proto.Merge
import InjectiveSdk.Proto.Cut
import InjectiveSdk.Proto.Errors
import InjectiveSdk.Proto.Bound
