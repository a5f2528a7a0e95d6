import Classzz.Go
import Classzz.Wire
import Classzz.Lib
import Classzz.Coinbase
import Classzz.TxSanity
import Classzz.Compact
import Classzz.BlockSanity
import Classzz.Entangle
import Classzz.EntangleBlock
import Classzz.View
import Classzz.Inputs
import Classzz.Subsidy
import Classzz.Connect
import Classzz.Difficulty
import Classzz.Context
